/-
Where the data of a converted trace lies. A page that has code keeps none of
its data: its data moves to a page that has neither.
-/

import ChampSim.Cvp.Record
import Mathlib.Data.List.Nodup
import Mathlib.Data.List.Perm.Subperm

set_option autoImplicit false

namespace ChampSim.Cvp

abbrev Page := BitVec 64

def pageOf (a : BitVec 64) : Page := a >>> 12

def place (page : Page) (a : BitVec 64) : BitVec 64 := (page <<< 12) ||| (a &&& 0xfff)

/-- `code_pages` and `data_pages`. -/
structure Pages where
  code : List Page
  data : List Page

/-- `preprocess_file`. -/
def preprocess (traces : List CvpTrace) : Pages where
  code := traces.map (fun trace => pageOf trace.pc)
  data := (traces.filter (fun trace => trace.type.isMemory)).map (fun trace => pageOf trace.ea)

structure Remap where
  remappedPages : Page → Page := fun _page => 0
  bumpPage : Page := 0x1000

namespace Pages

variable (pages : Pages)

def taken (page : Page) : Bool := page ∈ pages.code || page ∈ pages.data

def count : Nat := pages.code.length + pages.data.length

/-- The loop that looks for a free page, for at most so many taken ones. -/
def freePage : Nat → Page → Page
  | 0, page => page
  | passes + 1, page => if pages.taken page then freePage passes (page + 1) else page

def transform (remap : Remap) (a : BitVec 64) : BitVec 64 × Remap :=
  if pageOf a ∈ pages.code then
    if remap.remappedPages (pageOf a) = 0 then
      let newPage := pages.freePage pages.count remap.bumpPage
      (place newPage a,
        { remappedPages := fun page => if page = pageOf a then newPage else remap.remappedPages page
          bumpPage := newPage + 1 })
    else (place (remap.remappedPages (pageOf a)) a, remap)
  else (place (pageOf a) a, remap)

/-! ### Pages that are free -/

theorem ofNat_add (page : Page) (passes : Nat) (small : page.toNat + passes < 2 ^ 64) :
    (page + BitVec.ofNat 64 passes).toNat = page.toNat + passes := by
  rw [BitVec.toNat_add, BitVec.toNat_ofNat, Nat.add_mod_mod, Nat.mod_eq_of_lt small]

/-- The pages that the loop passes are taken, and the one it ends at is not,
unless it has passed as many as it may. -/
theorem freePage_spec (passes : Nat) (page : Page) (small : page.toNat + passes < 2 ^ 64) :
    ∃ passed ≤ passes, (pages.freePage passes page).toNat = page.toNat + passed ∧
      (∀ number, page.toNat ≤ number → number < page.toNat + passed →
        pages.taken (BitVec.ofNat 64 number) = true) ∧
      (passed < passes → pages.taken (pages.freePage passes page) = false) := by
  induction passes generalizing page with
  | zero =>
      refine ⟨0, Nat.le_refl 0, rfl, ?_, ?_⟩
      · intro number above below
        omega
      · intro impossible
        cases impossible
  | succ passes ih =>
      unfold freePage
      cases isTaken : pages.taken page with
      | false =>
          rw [if_neg Bool.false_ne_true]
          refine ⟨0, Nat.zero_le _, rfl, ?_, fun _more => isTaken⟩
          intro number above below
          omega
      | true =>
          rw [if_pos rfl]
          have next := ofNat_add page 1 (by omega)
          change (page + 1).toNat = _ at next
          obtain ⟨passed, within, reaches, skipped, ends⟩ := ih (page + 1) (by omega)
          refine ⟨passed + 1, Nat.succ_le_succ within, by omega, ?_, fun more => ends (by omega)⟩
          intro number above below
          by_cases here : number = page.toNat
          · rw [here, BitVec.ofNat_toNat, BitVec.setWidth_eq]
            exact isTaken
          · exact skipped number (by omega) (by omega)

/-- Numbers in a row that are all listed are no more than the list is long. -/
theorem row_length {listed : List Page} (start count : Nat) (small : start + count ≤ 2 ^ 64)
    (among : ∀ number, start ≤ number → number < start + count → BitVec.ofNat 64 number ∈ listed) :
    count ≤ listed.length := by
  have distinct : ((List.range' start count).map (BitVec.ofNat 64)).Nodup := by
    apply List.Nodup.map_on _ List.nodup_range'
    intro first isFirst second isSecond same
    rw [List.mem_range'_1] at isFirst isSecond
    have equal := congrArg BitVec.toNat same
    rw [BitVec.toNat_ofNat, BitVec.toNat_ofNat, Nat.mod_eq_of_lt (by omega),
      Nat.mod_eq_of_lt (by omega)] at equal
    exact equal
  have inside : (List.range' start count).map (BitVec.ofNat 64) ⊆ listed := by
    intro page member
    obtain ⟨number, isNumber, same⟩ := List.mem_map.mp member
    rw [List.mem_range'_1] at isNumber
    exact same ▸ among number isNumber.1 isNumber.2
  have fits := (distinct.subperm inside).length_le
  rw [List.length_map, List.length_range'] at fits
  exact fits

theorem mem_taken {page : Page} :
    pages.taken page = true ↔ page ∈ pages.code ++ pages.data := by
  unfold taken
  rw [Bool.or_eq_true, decide_eq_true_iff, decide_eq_true_iff, List.mem_append]

theorem freePage_free (page : Page) (small : page.toNat + pages.count < 2 ^ 64) :
    ∃ passed ≤ pages.count, (pages.freePage pages.count page).toNat = page.toNat + passed ∧
      (∀ number, page.toNat ≤ number → number < page.toNat + passed →
        pages.taken (BitVec.ofNat 64 number) = true) ∧
      pages.taken (pages.freePage pages.count page) = false := by
  obtain ⟨passed, within, reaches, skipped, ends⟩ := pages.freePage_spec pages.count page small
  refine ⟨passed, within, reaches, skipped, ?_⟩
  rcases Nat.lt_or_eq_of_le within with early | all
  · exact ends early
  · by_contra isTaken
    have enough : passed + 1 ≤ (pages.code ++ pages.data).length := by
      apply row_length page.toNat (passed + 1) (by omega)
      intro number above below
      apply pages.mem_taken.mp
      by_cases last : number = page.toNat + passed
      · rw [last, ← reaches, BitVec.ofNat_toNat, BitVec.setWidth_eq]
        exact Bool.not_eq_false _ |>.mp isTaken
      · exact skipped number above (by omega)
    rw [List.length_append] at enough
    unfold count at all
    omega

end Pages

/-! ### Pages that have moved -/

/-- The trace has so few pages that no page number overflows an address. -/
def Pages.Few (pages : Pages) : Prop := 0x1000 + 2 * pages.count < 2 ^ 52

structure Moved (pages : Pages) (remap : Remap) (moved : List Page) : Prop where
  distinct : moved.Nodup
  hasCode : ∀ page ∈ moved, page ∈ pages.code
  still : ∀ page, page ∉ moved → remap.remappedPages page = 0
  free : ∀ page ∈ moved, pages.taken (remap.remappedPages page) = false
  passed : ∀ page ∈ moved, 0x1000 ≤ (remap.remappedPages page).toNat ∧
    (remap.remappedPages page).toNat < remap.bumpPage.toNat
  apart : ∀ page ∈ moved, ∀ other ∈ moved,
    remap.remappedPages page = remap.remappedPages other → page = other
  bump : 0x1000 ≤ remap.bumpPage.toNat
  used : ∀ number, 0x1000 ≤ number → number < remap.bumpPage.toNat →
    BitVec.ofNat 64 number ∈ pages.code ++ pages.data ++ moved.map remap.remappedPages

theorem start_moved (pages : Pages) : Moved pages {} [] := by
  refine ⟨List.nodup_nil, ?_, fun _page _still => rfl, ?_, ?_, ?_, Nat.le_refl _, ?_⟩
  · intro page impossible
    cases impossible
  · intro page impossible
    cases impossible
  · intro page impossible
    cases impossible
  · intro page impossible
    cases impossible
  · intro number above below
    exact absurd (Nat.lt_of_le_of_lt above below) (Nat.lt_irrefl _)

variable {pages : Pages} {remap : Remap} {moved : List Page}

theorem Moved.bump_le (known : Moved pages remap moved) :
    remap.bumpPage.toNat ≤ 0x1000 + pages.count + pages.code.length := by
  have bounded := remap.bumpPage.isLt
  have some := known.bump
  have row : remap.bumpPage.toNat - 0x1000 ≤
      (pages.code ++ pages.data ++ moved.map remap.remappedPages).length := by
    apply Pages.row_length 0x1000 _ (by omega)
    intro number above below
    exact known.used number above (by omega)
  have few := (known.distinct.subperm known.hasCode).length_le
  rw [List.length_append, List.length_append, List.length_map] at row
  unfold Pages.count
  omega

theorem Moved.moved_iff (known : Moved pages remap moved) {page : Page} :
    page ∈ moved ↔ remap.remappedPages page ≠ 0 := by
  constructor
  · intro member none
    have above := (known.passed page member).1
    rw [none] at above
    exact absurd above (by decide)
  · intro some
    by_contra absent
    exact some (known.still page absent)

theorem Moved.move (known : Moved pages remap moved) (few : pages.Few) {page : Page}
    (hasCode : page ∈ pages.code) (still : remap.remappedPages page = 0) :
    Moved pages
      { remappedPages := fun other =>
          if other = page then pages.freePage pages.count remap.bumpPage
          else remap.remappedPages other
        bumpPage := pages.freePage pages.count remap.bumpPage + 1 } (page :: moved) := by
  have bounded := known.bump_le
  have bump := known.bump
  unfold Pages.Few at few
  have codes : pages.code.length ≤ pages.count := Nat.le_add_right _ _
  obtain ⟨passed, within, reaches, skipped, free⟩ :=
    pages.freePage_free remap.bumpPage (by omega)
  have absent : page ∉ moved := fun member => known.moved_iff.mp member still
  have next := Pages.ofNat_add (pages.freePage pages.count remap.bumpPage) 1 (by omega)
  change (pages.freePage pages.count remap.bumpPage + 1).toNat = _ at next
  have others : ∀ other ∈ moved, ¬other = page := fun other member same => absent (same ▸ member)
  have fresh : ∀ other ∈ moved,
      remap.remappedPages other ≠ pages.freePage pages.count remap.bumpPage := by
    intro other member same
    have below := (known.passed other member).2
    rw [same, reaches] at below
    omega
  constructor
  · exact List.nodup_cons.mpr ⟨absent, known.distinct⟩
  · intro other member
    rcases List.mem_cons.mp member with here | earlier
    · exact here ▸ hasCode
    · exact known.hasCode other earlier
  · intro other away
    rw [List.mem_cons, not_or] at away
    dsimp only
    rw [if_neg away.1]
    exact known.still other away.2
  · intro other member
    dsimp only
    rcases List.mem_cons.mp member with here | earlier
    · rw [if_pos here]
      exact free
    · rw [if_neg (others other earlier)]
      exact known.free other earlier
  · intro other member
    dsimp only
    rcases List.mem_cons.mp member with here | earlier
    · rw [if_pos here]
      omega
    · rw [if_neg (others other earlier)]
      have old := known.passed other earlier
      omega
  · intro first isFirst second isSecond same
    dsimp only at same
    rcases List.mem_cons.mp isFirst with here | earlier
    · rcases List.mem_cons.mp isSecond with also | later
      · rw [here, also]
      · rw [if_pos here, if_neg (others second later)] at same
        exact absurd same.symm (fresh second later)
    · rcases List.mem_cons.mp isSecond with also | later
      · rw [if_neg (others first earlier), if_pos also] at same
        exact absurd same (fresh first earlier)
      · rw [if_neg (others first earlier), if_neg (others second later)] at same
        exact known.apart first earlier second later same
  · dsimp only
    omega
  · intro number above below
    dsimp only at below ⊢
    rw [List.map_cons, if_pos rfl]
    by_cases old : number < remap.bumpPage.toNat
    · rcases List.mem_append.mp (known.used number above old) with listed | image
      · exact List.mem_append_left _ listed
      · obtain ⟨other, member, same⟩ := List.mem_map.mp image
        apply List.mem_append_right
        apply List.mem_cons_of_mem
        apply List.mem_map.mpr
        exact ⟨other, member, by rw [if_neg (others other member), same]⟩
    · by_cases last : number = (pages.freePage pages.count remap.bumpPage).toNat
      · rw [last, BitVec.ofNat_toNat, BitVec.setWidth_eq]
        exact List.mem_append_right _ List.mem_cons_self
      · apply List.mem_append_left
        exact pages.mem_taken.mp (skipped number (by omega) (by omega))

structure Keeps (remap later : Remap) (moved further : List Page) : Prop where
  among : ∀ page ∈ moved, page ∈ further
  same : ∀ page ∈ moved, later.remappedPages page = remap.remappedPages page

theorem Keeps.refl (remap : Remap) (moved : List Page) : Keeps remap remap moved moved :=
  ⟨fun _page member => member, fun _page _member => rfl⟩

theorem Keeps.trans {middle later : Remap} {more further : List Page}
    (first : Keeps remap middle moved more) (second : Keeps middle later more further) :
    Keeps remap later moved further := by
  constructor
  · intro page member
    exact second.among page (first.among page member)
  · intro page member
    rw [second.same page (first.among page member), first.same page member]

def home (pages : Pages) (remap : Remap) (page : Page) : Page :=
  if page ∈ pages.code then remap.remappedPages page else page

def Homed (pages : Pages) (moved : List Page) (page : Page) : Prop :=
  page ∈ pages.code → page ∈ moved

theorem Keeps.home {later : Remap} {further : List Page} (keeps : Keeps remap later moved further)
    {page : Page} (homed : Homed pages moved page) :
    Cvp.home pages later page = Cvp.home pages remap page ∧ Homed pages further page := by
  unfold Cvp.home
  constructor
  · by_cases hasCode : page ∈ pages.code
    · rw [if_pos hasCode, if_pos hasCode]
      exact keeps.same page (homed hasCode)
    · rw [if_neg hasCode, if_neg hasCode]
  · intro hasCode
    exact keeps.among page (homed hasCode)

theorem Moved.transform (known : Moved pages remap moved) (few : pages.Few) (a : BitVec 64) :
    ∃ further, Moved pages (pages.transform remap a).2 further ∧
      Keeps remap (pages.transform remap a).2 moved further ∧
      Homed pages further (pageOf a) ∧
      (pages.transform remap a).1 = place (home pages (pages.transform remap a).2 (pageOf a)) a := by
  unfold Pages.transform home
  by_cases hasCode : pageOf a ∈ pages.code
  · rw [if_pos hasCode, if_pos hasCode]
    by_cases still : remap.remappedPages (pageOf a) = 0
    · rw [if_pos still]
      refine ⟨pageOf a :: moved, known.move few hasCode still, ⟨?_, ?_⟩, ?_, ?_⟩
      · intro page member
        exact List.mem_cons_of_mem _ member
      · intro page member
        apply if_neg
        intro same
        exact known.moved_iff.mp member (same ▸ still)
      · intro _hasCode
        exact List.mem_cons_self
      · dsimp only
        rw [if_pos rfl]
    · rw [if_neg still]
      exact ⟨moved, known, .refl remap moved, fun _hasCode => known.moved_iff.mpr still, rfl⟩
  · rw [if_neg hasCode, if_neg hasCode]
    exact ⟨moved, known, .refl remap moved, fun code => absurd code hasCode, rfl⟩

/-! ### Addresses -/

theorem getLsbD_place (page : Page) (a : BitVec 64) (position : Nat) :
    (place page a).getLsbD position =
      (decide (position < 64) && (if position < 12 then a.getLsbD position
        else page.getLsbD (position - 12))) := by
  have mask : (0xfff : BitVec 64).getLsbD position = decide (position < 12) := by
    have ones : (0xfff : BitVec 64).toNat = 2 ^ 12 - 1 := rfl
    rw [← BitVec.testBit_toNat, ones, Nat.testBit_two_pow_sub_one]
  unfold place
  rw [BitVec.getLsbD_or, BitVec.getLsbD_and, BitVec.getLsbD_shiftLeft, mask]
  by_cases low : position < 12
  · have within : position < 64 := by omega
    simp [low, within]
  · simp [low]

def Addressed (page : Page) : Prop := page.toNat < 2 ^ 52

theorem addressed_pageOf (a : BitVec 64) : Addressed (pageOf a) := by
  unfold Addressed pageOf
  rw [BitVec.toNat_ushiftRight, Nat.shiftRight_eq_div_pow]
  have small := a.isLt
  omega

theorem pageOf_place {page : Page} (addressed : Addressed page) (a : BitVec 64) :
    pageOf (place page a) = page := by
  apply BitVec.eq_of_getLsbD_eq
  intro position within
  unfold pageOf
  rw [BitVec.getLsbD_ushiftRight, getLsbD_place, if_neg (by omega), Nat.add_sub_cancel_left]
  by_cases low : 12 + position < 64
  · rw [decide_eq_true low, Bool.true_and]
  · have high : page.getLsbD position = false := by
      rw [← BitVec.testBit_toNat]
      apply Nat.testBit_lt_two_pow
      exact Nat.lt_of_lt_of_le addressed (Nat.pow_le_pow_right (by decide) (by omega))
    rw [decide_eq_false low, Bool.false_and, high]

theorem place_pageOf (a : BitVec 64) : place (pageOf a) a = a := by
  apply BitVec.eq_of_getLsbD_eq
  intro position within
  rw [getLsbD_place, decide_eq_true within, Bool.true_and]
  by_cases low : position < 12
  · rw [if_pos low]
  · rw [if_neg low]
    unfold pageOf
    rw [BitVec.getLsbD_ushiftRight, Nat.add_sub_cancel' (Nat.not_lt.mp low)]

/-- Two places that are the same in one page are the same in any page. -/
theorem place_moves {page : Page} {a b : BitVec 64} (same : place page a = place page b)
    (other : Page) : place other a = place other b := by
  apply BitVec.eq_of_getLsbD_eq
  intro position within
  have bit := congrArg (fun word => BitVec.getLsbD word position) same
  rw [getLsbD_place, getLsbD_place] at bit ⊢
  by_cases low : position < 12
  · rw [if_pos low, if_pos low] at bit ⊢
    exact bit
  · rw [if_neg low, if_neg low]

theorem Moved.home_addressed (known : Moved pages remap moved) (few : pages.Few) {page : Page} (addressed : Addressed page)
    (homed : Homed pages moved page) : Addressed (home pages remap page) := by
  unfold home
  by_cases hasCode : page ∈ pages.code
  · rw [if_pos hasCode]
    have bounded := known.bump_le
    have below := (known.passed page (homed hasCode)).2
    have codes : pages.code.length ≤ pages.count := Nat.le_add_right _ _
    unfold Pages.Few at few
    unfold Addressed
    omega
  · rw [if_neg hasCode]
    exact addressed

theorem Moved.home_apart (known : Moved pages remap moved) {page : Page} (homed : Homed pages moved page) :
    home pages remap page ∉ pages.code := by
  unfold home
  by_cases hasCode : page ∈ pages.code
  · rw [if_pos hasCode]
    intro taken
    have free := known.free page (homed hasCode)
    rw [pages.mem_taken.mpr (List.mem_append_left _ taken)] at free
    cases free
  · rw [if_neg hasCode]
    exact hasCode

theorem Moved.home_injective (known : Moved pages remap moved) {page other : Page}
    (homed : Homed pages moved page)
    (homedOther : Homed pages moved other) (isData : page ∈ pages.data)
    (isDataOther : other ∈ pages.data)
    (same : home pages remap page = home pages remap other) : page = other := by
  have moves : ∀ {first second : Page}, first ∈ moved → second ∈ pages.data →
      remap.remappedPages first ≠ second := by
    intro first second member data equal
    have free := known.free first member
    rw [pages.mem_taken.mpr (List.mem_append_right _ (equal ▸ data))] at free
    cases free
  unfold home at same
  by_cases hasCode : page ∈ pages.code
  · by_cases hasCodeOther : other ∈ pages.code
    · rw [if_pos hasCode, if_pos hasCodeOther] at same
      exact known.apart page (homed hasCode) other (homedOther hasCodeOther) same
    · rw [if_pos hasCode, if_neg hasCodeOther] at same
      exact absurd same (moves (homed hasCode) isDataOther)
  · by_cases hasCodeOther : other ∈ pages.code
    · rw [if_neg hasCode, if_pos hasCodeOther] at same
      exact absurd same.symm (moves (homedOther hasCodeOther) isData)
    · rw [if_neg hasCode, if_neg hasCodeOther] at same
      exact same

end ChampSim.Cvp

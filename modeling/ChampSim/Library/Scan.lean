/-
Scans of a list that report an item at its index.

`findIf` stops at the first item that is asked for. `minmaxElement` takes two
items at a time, as `std::minmax_element` does. Its comparison need not be a
strict order: it is enough that each answer agrees with a preorder. A scan for
the least item that is given `≤` ends with the last of the least.
-/

import ChampSim.Library.Outcome
import Mathlib.Order.Lattice
import Mathlib.Data.List.Induction

set_option autoImplicit false

namespace ChampSim.Scan

variable {Item : Type}

structure Found (Item : Type) where
  index : Nat
  item : Item

/-- `std::find_if`. -/
def findIf (wanted : Item → Bool) : List Item → Option (Found Item)
  | [] => none
  | item :: rest =>
      if wanted item then some ⟨0, item⟩
      else (findIf wanted rest).map (fun found => ⟨found.index + 1, found.item⟩)

theorem findIf_some (wanted : Item → Bool) (items : List Item) (found : Found Item)
    (hit : findIf wanted items = some found) :
    items[found.index]? = some found.item ∧ wanted found.item = true := by
  induction items generalizing found with
  | nil => exact absurd hit (by simp [findIf])
  | cons item rest ih =>
      unfold findIf at hit
      cases isWanted : wanted item with
      | true =>
          rw [if_pos isWanted] at hit
          cases hit
          exact ⟨rfl, isWanted⟩
      | false =>
          rw [if_neg (by simp [isWanted])] at hit
          obtain ⟨later, hitLater, same⟩ := Option.map_eq_some_iff.mp hit
          cases same
          exact ih later hitLater

theorem findIf_none (wanted : Item → Bool) (items : List Item) :
    findIf wanted items = none ↔ ∀ item ∈ items, wanted item = false := by
  induction items with
  | nil => simp [findIf]
  | cons item rest ih =>
      unfold findIf
      cases isWanted : wanted item with
      | true => simp [isWanted]
      | false => simp [isWanted, ih]

/-- The scan from a position on, with the smallest and the largest item so far. -/
def scan (less : Item → Item → Bool) (smallest largest : Found Item) (position : Nat) :
    List Item → Found Item × Found Item
  | [] => (smallest, largest)
  | [first] =>
      if less first smallest.item then (⟨position, first⟩, largest)
      else if !less first largest.item then (smallest, ⟨position, first⟩)
      else (smallest, largest)
  | first :: second :: rest =>
      let one : Found Item := ⟨position, first⟩
      let two : Found Item := ⟨position + 1, second⟩
      if less second first then
        scan less (if less second smallest.item then two else smallest)
          (if !less first largest.item then one else largest) (position + 2) rest
      else
        scan less (if less first smallest.item then one else smallest)
          (if !less second largest.item then two else largest) (position + 2) rest

def minmaxElement (less : Item → Item → Bool) : List Item → Option (Found Item × Found Item)
  | [] => none
  | [only] => some (⟨0, only⟩, ⟨0, only⟩)
  | first :: second :: rest =>
      some (if less second first then scan less ⟨1, second⟩ ⟨0, first⟩ 2 rest
        else scan less ⟨0, first⟩ ⟨1, second⟩ 2 rest)

section Minimum

open Outcome (Ends)

variable {Error : Type}

/-- `std::min_element`, with a comparison that may fail. -/
def minFrom (less : Item → Item → Except Error Bool) (smallest : Found Item) (position : Nat) :
    List Item → Except Error (Found Item)
  | [] => .ok smallest
  | item :: rest => do
      let isLess ← less item smallest.item
      minFrom less (if isLess then ⟨position, item⟩ else smallest) (position + 1) rest

/-- The end of an empty list is `none`. -/
def minElement (less : Item → Item → Except Error Bool) :
    List Item → Except Error (Option (Found Item))
  | [] => .ok none
  | first :: rest => do
      let least ← minFrom less ⟨0, first⟩ 1 rest
      return some least

variable {Allowed : Error → Prop} {less : Item → Item → Except Error Bool}

/-- The scan ends with an item of the list, or with the failure of a comparison. -/
theorem minFrom_ends (items : List Item) :
    ∀ (seen : List Item) (smallest : Found Item), seen[smallest.index]? = some smallest.item →
      (∀ lhs ∈ seen ++ items, ∀ rhs ∈ seen ++ items, Ends Allowed (less lhs rhs) (fun _ => True)) →
      Ends Allowed (minFrom less smallest seen.length items)
        (fun found => (seen ++ items)[found.index]? = some found.item) := by
  induction items with
  | nil =>
      intro seen smallest placed _compared
      rw [List.append_nil]
      exact placed
  | cons item rest ih =>
      intro seen smallest placed compared
      apply (compared item (by simp) smallest.item
        (List.mem_append_left _ (List.mem_of_getElem? placed))).bind
      intro isLess _compared
      have joined : seen ++ item :: rest = seen ++ [item] ++ rest := List.append_cons _ _ _
      have grown : seen.length + 1 = (seen ++ [item]).length := by simp
      rw [joined] at compared ⊢
      rw [grown]
      refine ih (seen ++ [item]) _ ?_ compared
      cases isLess with
      | true => exact List.getElem?_concat_length
      | false =>
          obtain ⟨within, _value⟩ := List.getElem?_eq_some_iff.mp placed
          exact (List.getElem?_append_left within).trans placed

theorem minElement_ends (items : List Item)
    (compared : ∀ lhs ∈ items, ∀ rhs ∈ items, Ends Allowed (less lhs rhs) (fun _ => True)) :
    Ends Allowed (minElement less items)
      (fun found => (found = none → items = []) ∧
        ∀ least ∈ found, items[least.index]? = some least.item) := by
  cases items with
  | nil => exact ⟨fun _none => rfl, by simp⟩
  | cons first rest =>
      apply (minFrom_ends rest [first] ⟨0, first⟩ rfl compared).bind
      intro found placed
      refine ⟨(fun isNone => absurd isNone (Option.some_ne_none found)), ?_⟩
      intro other same
      cases same
      exact placed

end Minimum

variable {Key : Type} [LinearOrder Key]

/-- Each answer of a comparison agrees with the order of the keys. -/
structure Agrees (less : Item → Item → Bool) (key : Item → Key) : Prop where
  below : ∀ lhs rhs, less lhs rhs = true → key lhs ≤ key rhs
  above : ∀ lhs rhs, less lhs rhs = false → key rhs ≤ key lhs

/-- What a scan has found among the items that it has seen. -/
structure Spans (key : Item → Key) (seen : List Item) (found : Found Item × Found Item) :
    Prop where
  smallest : seen[found.1.index]? = some found.1.item
  largest : seen[found.2.index]? = some found.2.item
  lowest : ∀ item ∈ seen, key found.1.item ≤ key item
  highest : ∀ item ∈ seen, key item ≤ key found.2.item

namespace Spans

variable {key : Item → Key} {seen : List Item} {found : Found Item × Found Item}

/-- More items, with a smallest and a largest item that are no narrower. -/
theorem widen (spans : Spans key seen found) (more : List Item) (next : Found Item × Found Item)
    (small : next.1 = found.1 ∨ (seen ++ more)[next.1.index]? = some next.1.item)
    (large : next.2 = found.2 ∨ (seen ++ more)[next.2.index]? = some next.2.item)
    (lower : key next.1.item ≤ key found.1.item) (upper : key found.2.item ≤ key next.2.item)
    (between : ∀ item ∈ more, key next.1.item ≤ key item ∧ key item ≤ key next.2.item) :
    Spans key (seen ++ more) next := by
  have inside : ∀ place : Found Item, seen[place.index]? = some place.item →
      (seen ++ more)[place.index]? = some place.item := by
    intro place present
    obtain ⟨within, _value⟩ := List.getElem?_eq_some_iff.mp present
    rw [List.getElem?_append_left within]
    exact present
  refine ⟨?_, ?_, ?_, ?_⟩
  · rcases small with same | placed
    · rw [same]
      exact inside _ spans.smallest
    · exact placed
  · rcases large with same | placed
    · rw [same]
      exact inside _ spans.largest
    · exact placed
  · intro other member
    rcases List.mem_append.mp member with older | newer
    · exact lower.trans (spans.lowest other older)
    · exact (between other newer).1
  · intro other member
    rcases List.mem_append.mp member with older | newer
    · exact (spans.highest other older).trans upper
    · exact (between other newer).2

end Spans

variable {less : Item → Item → Bool} {key : Item → Key}

private theorem lower_choice (agrees : Agrees less key) (item smallest : Found Item) :
    key (if less item.item smallest.item then item else smallest).item ≤ key smallest.item ∧
      key (if less item.item smallest.item then item else smallest).item ≤ key item.item := by
  cases answer : less item.item smallest.item with
  | true => exact ⟨agrees.below _ _ answer, le_refl _⟩
  | false => exact ⟨le_refl _, agrees.above _ _ answer⟩

private theorem upper_choice (agrees : Agrees less key) (item largest : Found Item) :
    key largest.item ≤ key (if !less item.item largest.item then item else largest).item ∧
      key item.item ≤ key (if !less item.item largest.item then item else largest).item := by
  cases answer : less item.item largest.item with
  | true => exact ⟨le_refl _, agrees.below _ _ answer⟩
  | false => exact ⟨agrees.above _ _ answer, le_refl _⟩

private theorem Spans.pair (agrees : Agrees less key) {seen more : List Item}
    {smallest largest : Found Item} (spans : Spans key seen (smallest, largest))
    (low high : Found Item)
    (lowPlace : (seen ++ more)[low.index]? = some low.item)
    (highPlace : (seen ++ more)[high.index]? = some high.item)
    (both : ∀ item ∈ more, key low.item ≤ key item ∧ key item ≤ key high.item) :
    Spans key (seen ++ more) (if less low.item smallest.item then low else smallest,
      if !less high.item largest.item then high else largest) := by
  obtain ⟨lowest, lowered⟩ := lower_choice agrees low smallest
  obtain ⟨highest, raised⟩ := upper_choice agrees high largest
  refine spans.widen more _ ?_ ?_ lowest highest ?_
  · cases less low.item smallest.item with
    | true => exact Or.inr lowPlace
    | false => exact Or.inl rfl
  · cases less high.item largest.item with
    | true => exact Or.inl rfl
    | false => exact Or.inr highPlace
  · intro item member
    exact ⟨lowered.trans (both item member).1, (both item member).2.trans raised⟩

/-- The scan finds the smallest and the largest of the seen and the scanned items. -/
theorem scan_spans (agrees : Agrees less key) (items : List Item) :
    ∀ (seen : List Item) (smallest largest : Found Item), Spans key seen (smallest, largest) →
      Spans key (seen ++ items) (scan less smallest largest seen.length items) := by
  induction items using List.twoStepInduction with
  | nil =>
      intro seen smallest largest spans
      rw [List.append_nil]
      exact spans
  | singleton item =>
      intro seen smallest largest spans
      have placed : (seen ++ [item])[seen.length]? = some item := List.getElem?_concat_length
      have ends : key smallest.item ≤ key largest.item :=
        spans.lowest _ (List.mem_of_getElem? spans.largest)
      unfold scan
      cases below : less item smallest.item with
      | true =>
          have low : key item ≤ key smallest.item := agrees.below _ _ below
          refine spans.widen [item] _ (Or.inr placed) (Or.inl rfl) low (le_refl _) ?_
          intro other member
          rw [List.mem_singleton.mp member]
          exact ⟨le_refl _, low.trans ends⟩
      | false =>
          have low : key smallest.item ≤ key item := agrees.above _ _ below
          cases above : less item largest.item with
          | true =>
              refine spans.widen [item] _ (Or.inl rfl) (Or.inl rfl) (le_refl _) (le_refl _) ?_
              intro other member
              rw [List.mem_singleton.mp member]
              exact ⟨low, agrees.below _ _ above⟩
          | false =>
              have high : key largest.item ≤ key item := agrees.above _ _ above
              refine spans.widen [item] _ (Or.inl rfl) (Or.inr placed) (le_refl _) high ?_
              intro other member
              rw [List.mem_singleton.mp member]
              exact ⟨low, le_refl _⟩
  | cons_cons first second rest continues _others =>
      intro seen smallest largest spans
      have one : (seen ++ [first, second])[seen.length]? = some first := by simp
      have two : (seen ++ [first, second])[seen.length + 1]? = some second := by simp
      have shift : seen.length + 2 = (seen ++ [first, second]).length := by simp
      have joined : seen ++ first :: second :: rest = seen ++ [first, second] ++ rest := by simp
      rw [joined]
      unfold scan
      cases order : less second first with
      | true =>
          rw [if_pos rfl, shift]
          apply continues
          have below : key second ≤ key first := agrees.below _ _ order
          refine spans.pair agrees ⟨seen.length + 1, second⟩ ⟨seen.length, first⟩ two one ?_
          intro item member
          rcases List.mem_cons.mp member with isFirst | isLast
          · rw [isFirst]
            exact ⟨below, le_refl _⟩
          · rw [List.mem_singleton.mp isLast]
            exact ⟨le_refl _, below⟩
      | false =>
          rw [if_neg Bool.false_ne_true, shift]
          apply continues
          have below : key first ≤ key second := agrees.above _ _ order
          refine spans.pair agrees ⟨seen.length, first⟩ ⟨seen.length + 1, second⟩ one two ?_
          intro item member
          rcases List.mem_cons.mp member with isFirst | isLast
          · rw [isFirst]
            exact ⟨le_refl _, below⟩
          · rw [List.mem_singleton.mp isLast]
            exact ⟨below, le_refl _⟩

/-- A list with items has a smallest and a largest one, and the scan finds them. -/
theorem minmaxElement_spans (agrees : Agrees less key) (items : List Item) (some : items ≠ []) :
    ∃ found, minmaxElement less items = Option.some found ∧ Spans key items found := by
  match items, some with
  | [only], _ =>
      refine ⟨_, rfl, rfl, rfl, ?_, ?_⟩
      · intro item member
        rw [List.mem_singleton.mp member]
      · intro item member
        rw [List.mem_singleton.mp member]
  | first :: second :: rest, _ =>
      refine ⟨_, rfl, ?_⟩
      cases order : less second first with
      | true =>
          have below : key second ≤ key first := agrees.below _ _ order
          refine scan_spans agrees rest [first, second] _ _ ⟨rfl, rfl, ?_, ?_⟩
          · simp [below]
          · simp [below]
      | false =>
          have below : key first ≤ key second := agrees.above _ _ order
          refine scan_spans agrees rest [first, second] _ _ ⟨rfl, rfl, ?_, ?_⟩
          · simp [below]
          · simp [below]

/-! ### The last of the least -/

/-- What `std::min_element` finds with a comparison that also answers yes for equal keys. -/
structure LastLeast (key : Item → Key) (seen : List Item) (found : Found Item) : Prop where
  placed : seen[found.index]? = some found.item
  least : ∀ item ∈ seen, key found.item ≤ key item
  last : ∀ index item, seen[index]? = some item → key item ≤ key found.item → index ≤ found.index

/-- One more item, which is taken unless it is above the least so far. -/
theorem LastLeast.append {seen : List Item} {found : Found Item}
    (lastLeast : LastLeast key seen found) (item : Item) :
    LastLeast key (seen ++ [item])
      (if key item ≤ key found.item then ⟨seen.length, item⟩ else found) := by
  have newest : (seen ++ [item])[seen.length]? = some item := List.getElem?_concat_length
  have inside : ∀ index other, (seen ++ [item])[index]? = some other →
      index ≤ seen.length ∧ (index = seen.length ∨ seen[index]? = some other) := by
    intro index other present
    have within := (List.getElem?_eq_some_iff.mp present).1
    rw [List.length_append, List.length_singleton] at within
    refine ⟨by omega, ?_⟩
    by_cases isLast : index = seen.length
    · exact Or.inl isLast
    · rw [List.getElem?_append_left (by omega)] at present
      exact Or.inr present
  by_cases below : key item ≤ key found.item
  · rw [if_pos below]
    refine ⟨newest, ?_, fun index other present _low => (inside index other present).1⟩
    intro other member
    rcases List.mem_append.mp member with older | isItem
    · exact below.trans (lastLeast.least other older)
    · rw [List.mem_singleton.mp isItem]
  · rw [if_neg below]
    have above := le_of_not_ge below
    have within := (List.getElem?_eq_some_iff.mp lastLeast.placed).1
    refine ⟨(List.getElem?_append_left within).trans lastLeast.placed, ?_, ?_⟩
    · intro other member
      rcases List.mem_append.mp member with older | isItem
      · exact lastLeast.least other older
      · rw [List.mem_singleton.mp isItem]
        exact above
    · intro index other present low
      rcases (inside index other present).2 with isLast | older
      · rw [isLast, newest, Option.some.injEq] at present
        rw [present] at below
        exact absurd low below
      · exact lastLeast.last index other older low

theorem minFrom_lastLeast {Error : Type} {less : Item → Item → Except Error Bool}
    (items : List Item) :
    ∀ (seen : List Item) (smallest : Found Item), LastLeast key seen smallest →
      (∀ lhs ∈ seen ++ items, ∀ rhs ∈ seen ++ items,
        less lhs rhs = .ok (decide (key lhs ≤ key rhs))) →
      ∃ found, minFrom less smallest seen.length items = .ok found ∧
        LastLeast key (seen ++ items) found := by
  induction items with
  | nil =>
      intro seen smallest lastLeast _compared
      exact ⟨smallest, rfl, by rw [List.append_nil]; exact lastLeast⟩
  | cons item rest ih =>
      intro seen smallest lastLeast compared
      have answer := compared item (by simp) smallest.item
        (List.mem_append_left _ (List.mem_of_getElem? lastLeast.placed))
      have grown : seen.length + 1 = (seen ++ [item]).length := by simp
      rw [List.append_cons seen item rest] at compared ⊢
      obtain ⟨found, ran, least⟩ := ih (seen ++ [item]) _ (lastLeast.append item) compared
      refine ⟨found, ?_, least⟩
      rw [← ran, minFrom, answer, grown]
      simp only [bind, Except.bind, decide_eq_true_eq]

theorem minElement_lastLeast {Error : Type} {less : Item → Item → Except Error Bool}
    (items : List Item) (nonempty : items ≠ [])
    (compared : ∀ lhs ∈ items, ∀ rhs ∈ items, less lhs rhs = .ok (decide (key lhs ≤ key rhs))) :
    ∃ found, minElement less items = .ok (some found) ∧ LastLeast key items found := by
  cases items with
  | nil => exact absurd rfl nonempty
  | cons first rest =>
      have alone : LastLeast key [first] ⟨0, first⟩ := by
        refine ⟨rfl, ?_, ?_⟩
        · intro item member
          rw [List.mem_singleton.mp member]
        · intro index item present _low
          have within := (List.getElem?_eq_some_iff.mp present).1
          rw [List.length_singleton] at within
          exact Nat.le_of_lt_succ within
      obtain ⟨found, ran, least⟩ := minFrom_lastLeast rest [first] ⟨0, first⟩ alone compared
      refine ⟨found, ?_, least⟩
      change (minFrom less ⟨0, first⟩ [first].length rest >>= fun other => _) = _
      rw [ran]
      rfl

/-- A search for the least item below a bound finds one, if there is one. -/
theorem least_isSome (key : Item → Nat) (items : List Item) :
    ∀ least : Option Item × Nat,
      (least.1.isSome = true ∨ ∃ item ∈ items, key item < least.2) →
      (items.foldl (fun least item => if key item < least.2 then (some item, key item) else least)
        least).1.isSome = true := by
  induction items with
  | nil =>
      rintro least (found | ⟨item, member, _below⟩)
      · exact found
      · cases member
  | cons item rest ih =>
      intro least candidates
      rw [List.foldl_cons]
      apply ih
      split
      · exact Or.inl rfl
      · rename_i above
        rcases candidates with found | ⟨other, member, below⟩
        · exact Or.inl found
        · rcases List.mem_cons.mp member with same | later
          · exact absurd (same ▸ below) above
          · exact Or.inr ⟨other, later, below⟩

end ChampSim.Scan

/-
What a walk has read so far, and what the tables of a walker hold.

The entry that a table holds is of the level of that table, so the last table
that hits has the lowest level. A walk that is at a level has read its first
address, and the page-table entry of each level above.
-/

import ChampSim.Ptw.PageTableWalker
import ChampSim.Vmem.Lookups

set_option autoImplicit false

namespace ChampSim.Ptw

open Cache (Request Response Channel Waitable)
open Msl (LruTable)
open Outcome (Ends need need_value)
open Vmem (Paging VirtualMemory)

/-- Every fault but one of `pscl.at`. -/
def InRange (fault : Fault) : Prop := fault ≠ .outOfRange

/-! ### The tables -/

/-- Table number `index` holds entries of the level that is `index` below the highest. -/
def Leveled (levels : Nat) (pscl : List Pscl) : Prop :=
  ∀ index table, pscl[index]? = some table →
    LruTable.Holds (fun entry => entry.level + index = levels) table.table

def HitsLeveled (levels : Nat) (hits : List (Option PsclEntry)) : Prop :=
  ∀ index entry, hits[index]? = some (some entry) → entry.level + index = levels

/-- The smallest level among the entries that hit, or the highest when none hits. -/
def startLevel (levels : Nat) (hits : List (Option PsclEntry)) : Nat :=
  ((hits.filterMap id).map PsclEntry.level).min?.getD levels

namespace Pscl

theorem checkHit_ends {levels index : Nat} {pscl : Pscl} (elem : PsclEntry)
    (leveled : LruTable.Holds (fun entry => entry.level + index = levels) pscl.table) :
    Ends InRange (pscl.checkHit elem) (fun checked =>
      (∀ entry, checked.1 = some entry → entry.level + index = levels) ∧
        LruTable.Holds (fun entry => entry.level + index = levels) checked.2.table) := by
  unfold checkHit
  split
  case isTrue =>
    intro impossible
    cases impossible
  case isFalse =>
    apply (need_value (by intro impossible; cases impossible) _).bind
    intro checked isChecked
    exact LruTable.checkHit_holds leveled isChecked

theorem fill_ends {levels index : Nat} {pscl : Pscl} (elem : PsclEntry)
    (leveled : LruTable.Holds (fun entry => entry.level + index = levels) pscl.table)
    (kept : elem.level + index = levels) :
    Ends InRange (pscl.fill elem) (fun filled =>
      LruTable.Holds (fun entry => entry.level + index = levels) filled.table) := by
  unfold fill
  split
  case isTrue =>
    intro impossible
    cases impossible
  case isFalse =>
    apply (need_value (by intro impossible; cases impossible) _).bind
    intro filled isFilled
    exact LruTable.fill_holds leveled kept isFilled

private def LeveledFrom (levels first : Nat) (pscl : List Pscl) : Prop :=
  ∀ index table, pscl[index]? = some table →
    LruTable.Holds (fun entry => entry.level + (first + index) = levels) table.table

private theorem checkHits_from (levels : Nat) (elem : PsclEntry) (pscl : List Pscl) :
    ∀ first, LeveledFrom levels first pscl →
      Ends InRange (checkHits elem pscl) (fun checked =>
        (∀ index entry, checked.1[index]? = some (some entry) →
          entry.level + (first + index) = levels) ∧
        LeveledFrom levels first checked.2 ∧ checked.2.length = pscl.length) := by
  induction pscl with
  | nil =>
      intro first _leveled
      refine ⟨?_, ?_, rfl⟩
      · intro index entry present
        cases present
      · intro index table present
        cases present
  | cons table rest ih =>
      intro first leveled
      unfold checkHits
      apply (checkHit_ends elem (leveled 0 table rfl)).bind
      intro checked ⟨hit, kept⟩
      have restLeveled : LeveledFrom levels (first + 1) rest := by
        intro index other present
        have whole := leveled (index + 1) other present
        rw [Nat.add_assoc, Nat.add_comm 1 index]
        exact whole
      apply (ih (first + 1) restLeveled).bind
      intro others ⟨hits, still, sized⟩
      refine ⟨?_, ?_, congrArg (· + 1) sized⟩
      · intro index entry present
        cases index with
        | zero => exact hit entry (Option.some.inj present)
        | succ index =>
            have level := hits index entry present
            omega
      · intro index other present
        cases index with
        | zero =>
            cases present
            exact kept
        | succ index =>
            have whole := still index other present
            rw [Nat.add_assoc, Nat.add_comm 1 index] at whole
            exact whole

theorem checkHits_ends {levels : Nat} {pscl : List Pscl} (elem : PsclEntry)
    (leveled : Leveled levels pscl) :
    Ends InRange (checkHits elem pscl) (fun checked => HitsLeveled levels checked.1 ∧
      Leveled levels checked.2 ∧ checked.2.length = pscl.length) := by
  have start : LeveledFrom levels 0 pscl := by
    intro index table present
    rw [Nat.zero_add]
    exact leveled index table present
  apply (checkHits_from levels elem pscl 0 start).mono
  intro checked ⟨hits, still, sized⟩
  refine ⟨?_, ?_, sized⟩
  · intro index entry present
    have level := hits index entry present
    omega
  · intro index table present
    have whole := still index table present
    rw [Nat.zero_add] at whole
    exact whole

end Pscl

theorem foldl_level (levels : Nat) (init : PsclEntry) (initLevel : init.level = levels)
    (hits : List (Option PsclEntry)) (leveled : HitsLeveled levels hits) :
    (hits.foldl (fun init hit => hit.getD init) init).level = startLevel levels hits ∧
      startLevel levels hits ≤ levels := by
  induction hits using List.reverseRecOn with
  | nil => exact ⟨initLevel, Nat.le_refl levels⟩
  | append_singleton hits hit ih =>
      have before : HitsLeveled levels hits := by
        intro index entry present
        obtain ⟨within, _value⟩ := List.getElem?_eq_some_iff.mp present
        exact leveled index entry ((List.getElem?_append_left within).trans present)
      obtain ⟨same, below⟩ := ih before
      rw [List.foldl_append]
      cases hit with
      | none =>
          have unchanged : startLevel levels (hits ++ [none]) = startLevel levels hits := by
            unfold startLevel
            rw [List.filterMap_append]
            simp
          rw [unchanged]
          exact ⟨same, below⟩
      | some entry =>
          have level := leveled hits.length entry List.getElem?_concat_length
          have smallest : startLevel levels (hits ++ [some entry]) = entry.level := by
            have least : ((((hits ++ [some entry]).filterMap id).map PsclEntry.level)).min? =
                some entry.level := by
              rw [List.min?_eq_some_iff]
              refine ⟨List.mem_map_of_mem (by simp), ?_⟩
              intro other member
              obtain ⟨held, isHeld, sameLevel⟩ := List.mem_map.mp member
              rw [List.mem_filterMap] at isHeld
              obtain ⟨slot, inHits, isSome⟩ := isHeld
              obtain ⟨index, placed⟩ := List.getElem?_of_mem inHits
              rw [show slot = some held from isSome] at placed
              have heldLevel := leveled index held placed
              obtain ⟨within, _value⟩ := List.getElem?_eq_some_iff.mp placed
              rw [List.length_append, List.length_singleton] at within
              omega
            unfold startLevel
            rw [least]
            rfl
          rw [smallest]
          refine ⟨rfl, ?_⟩
          omega

/-! ### The levels of a walk -/

def levelsDown (start level : Nat) : List Nat :=
  (List.range (start - level)).map (fun index => start - index)

theorem levelsDown_self (level : Nat) : levelsDown level level = [] := by
  unfold levelsDown
  rw [Nat.sub_self]
  rfl

theorem levelsDown_pred {start level : Nat} (positive : 0 < level) (below : level ≤ start) :
    levelsDown start (level - 1) = levelsDown start level ++ [level] := by
  unfold levelsDown
  rw [show start - (level - 1) = start - level + 1 by omega, List.range_succ, List.map_append,
    List.map_singleton, Nat.sub_sub_self below]

theorem levelsDown_length (start level : Nat) : (levelsDown start level).length = start - level := by
  unfold levelsDown
  rw [List.length_map, List.length_range]

section Entries

variable {config : PtwConfig}

def EntryAt (vmem : VirtualMemory config.paging) (cpu : Nat) (vaddr : Address) (level : Nat)
    (address : Address) : Prop :=
  ∃ ppage offset,
    vmem.pageTable (config.paging.pteKey (BitVec.ofNat 32 cpu) (config.paging.pageNumber vaddr)
      (BitVec.ofNat 64 level)) = some ppage ∧
    config.paging.getOffset (config.paging.pageAddress (config.paging.pageNumber vaddr))
      (BitVec.ofNat 64 level) = some offset ∧
    address = config.paging.entryAddress ppage offset

theorem EntryAt.mono {vmem next : VirtualMemory config.paging} {cpu level : Nat}
    {vaddr address : Address} (entry : EntryAt vmem cpu vaddr level address)
    (kept : vmem.Extends next) : EntryAt next cpu vaddr level address := by
  obtain ⟨ppage, offset, mapped, isOffset, isAddress⟩ := entry
  exact ⟨ppage, offset, kept.tables _ ppage mapped, isOffset, isAddress⟩

def PageAt (vmem : VirtualMemory config.paging) (cpu : Nat) (vaddr : Address) (data : Address) :
    Prop :=
  ∃ page, vmem.vpageToPpageMap (BitVec.ofNat 32 cpu, config.paging.pageNumber vaddr) =
      some page ∧ data = config.paging.pageAddress page

theorem PageAt.mono {vmem next : VirtualMemory config.paging} {cpu : Nat} {vaddr data : Address}
    (mapped : PageAt vmem cpu vaddr data) (kept : vmem.Extends next) :
    PageAt next cpu vaddr data := by
  obtain ⟨page, isPage, isData⟩ := mapped
  exact ⟨page, kept.pages _ page isPage, isData⟩

/-- What an entry that was answered carries: the entry of its level, or the page. -/
def Answered (vmem : VirtualMemory config.paging) (entry : PtwMshr) : Prop :=
  if entry.translationLevel = 0 then PageAt vmem entry.cpu entry.vAddress entry.data.value
  else EntryAt vmem entry.cpu entry.vAddress entry.translationLevel entry.data.value

theorem Answered.mono {vmem next : VirtualMemory config.paging} {entry : PtwMshr}
    (answered : Answered vmem entry) (kept : vmem.Extends next) : Answered next entry := by
  unfold Answered at answered ⊢
  split at answered
  case isTrue last =>
    rw [if_pos last]
    exact answered.mono kept
  case isFalse inner =>
    rw [if_neg inner]
    exact answered.mono kept

/-- Where the walk of a request starts: the last entry that hit, or CR3. -/
def Accepted.walkInit (record : Accepted) (levels : Nat) (cr3Addr : Address) : PsclEntry :=
  record.hits.foldl (fun init hit => hit.getD init) ⟨record.request.vAddress, cr3Addr, levels⟩

/-- An entry follows a request that was accepted, with what it has read so far. -/
structure Follows (levels : Nat) (cr3Addr : Address) (accepted : List Accepted)
    (vmem : VirtualMemory config.paging) (entry : PtwMshr) (record : Accepted) : Prop where
  recorded : accepted[entry.walk.number]? = some record
  vAddress : entry.vAddress = record.request.address
  cpu : entry.cpu = record.request.cpu
  pfMetadata : entry.pfMetadata = record.request.pfMetadata
  instrDependOnMe : entry.instrDependOnMe = record.request.instrDependOnMe
  toReturn : entry.toReturn = if record.request.responseRequested then [record.upper] else []
  start : entry.walk.start = startLevel levels record.hits
  within : entry.walk.start ≤ levels
  below : entry.translationLevel ≤ entry.walk.start
  reads : ∃ walkOffset rest,
    config.paging.getOffset record.request.address (BitVec.ofNat 64 entry.walk.start) =
      some walkOffset ∧
    entry.walk.reads =
      config.walkAddress (record.walkInit levels cr3Addr).ptwAddr walkOffset :: rest ∧
    List.Forall₂ (EntryAt vmem entry.cpu entry.vAddress)
      (levelsDown entry.walk.start entry.translationLevel) rest

def Stands (levels : Nat) (cr3Addr : Address) (accepted : List Accepted)
    (vmem : VirtualMemory config.paging) (entry : PtwMshr) : Prop :=
  ∃ record, Follows levels cr3Addr accepted vmem entry record

variable {levels : Nat} {cr3Addr : Address} {accepted : List Accepted}
  {vmem next : VirtualMemory config.paging} {entry : PtwMshr}

theorem Follows.mono {record : Accepted} (follows : Follows levels cr3Addr accepted vmem entry record)
    (more : List Accepted) (kept : vmem.Extends next) :
    Follows levels cr3Addr (accepted ++ more) next entry record := by
  obtain ⟨walkOffset, rest, isOffset, isReads, entries⟩ := follows.reads
  obtain ⟨inside, _value⟩ := List.getElem?_eq_some_iff.mp follows.recorded
  refine { follows with recorded := ?_, reads := ⟨walkOffset, rest, isOffset, isReads, ?_⟩ }
  · exact (List.getElem?_append_left inside).trans follows.recorded
  · exact entries.imp (fun _level _address mapped => mapped.mono kept)

theorem Stands.mono (stands : Stands levels cr3Addr accepted vmem entry) (more : List Accepted)
    (kept : vmem.Extends next) : Stands levels cr3Addr (accepted ++ more) next entry := by
  obtain ⟨record, follows⟩ := stands
  exact ⟨record, follows.mono more kept⟩

theorem Stands.extends (stands : Stands levels cr3Addr accepted vmem entry) (kept : vmem.Extends next) :
    Stands levels cr3Addr accepted next entry := by
  have same := stands.mono [] kept
  rw [List.append_nil] at same
  exact same

theorem Stands.data (stands : Stands levels cr3Addr accepted vmem entry) (data : Waitable Address) :
    Stands levels cr3Addr accepted vmem { entry with data } := by
  obtain ⟨record, follows⟩ := stands
  exact ⟨record, { follows with }⟩

theorem Stands.step {lower : PtwMshr} (stands : Stands levels cr3Addr accepted vmem entry)
    (positive : 0 < entry.translationLevel) (answered : Answered vmem entry)
    (isLower : lower = { entry with
      address := entry.data.value
      translationLevel := entry.translationLevel - 1
      walk := { entry.walk with reads := entry.walk.reads ++ [entry.data.value] } }) :
    Stands levels cr3Addr accepted vmem lower := by
  obtain ⟨record, follows⟩ := stands
  obtain ⟨walkOffset, rest, isOffset, isReads, entries⟩ := follows.reads
  unfold Answered at answered
  rw [if_neg (Nat.pos_iff_ne_zero.mp positive)] at answered
  rw [isLower]
  refine ⟨record, { follows with below := ?_, reads := ?_ }⟩
  · exact (Nat.sub_le _ _).trans follows.below
  · refine ⟨walkOffset, rest ++ [entry.data.value], isOffset, ?_, ?_⟩
    · dsimp only
      rw [isReads, List.cons_append]
    · dsimp only
      rw [levelsDown_pred positive follows.below]
      exact List.rel_append entries (.cons answered .nil)

theorem Follows.reads_length {record : Accepted}
    (follows : Follows levels cr3Addr accepted vmem entry record) :
    entry.walk.reads.length + entry.translationLevel = startLevel levels record.hits + 1 := by
  obtain ⟨walkOffset, rest, isOffset, isReads, entries⟩ := follows.reads
  have sized := entries.length_eq
  rw [levelsDown_length] at sized
  rw [isReads, List.length_cons, ← sized, ← follows.start]
  have below := follows.below
  omega

/-- The answer to a request, with the page that its address has. -/
def reply (vmem : VirtualMemory config.paging) (record : Accepted) : List (Nat × Response) :=
  let request := record.request
  let page := (vmem.vaToPa (BitVec.ofNat 32 request.cpu)
    (config.paging.pageNumber request.address)).1.1
  if request.responseRequested then
    [(record.upper,
      { address := request.address
        vAddress := request.address
        data := config.paging.pageAddress page
        pfMetadata := request.pfMetadata
        instrDependOnMe := request.instrDependOnMe })]
  else []

/-- A walk that is at its last level carries the reply to its request. -/
theorem Follows.responses {record : Accepted}
    (follows : Follows levels cr3Addr accepted vmem entry record) (isLast : entry.translationLevel = 0)
    (answered : Answered vmem entry) : entry.responses = reply vmem record := by
  unfold Answered at answered
  rw [if_pos isLast] at answered
  obtain ⟨page, mapped, isData⟩ := answered
  rw [follows.cpu, follows.vAddress] at mapped
  have found : (vmem.vaToPa (BitVec.ofNat 32 record.request.cpu)
      (config.paging.pageNumber record.request.address)).1.1 = page := by
    unfold VirtualMemory.vaToPa
    rw [mapped]
  unfold PtwMshr.responses reply
  dsimp only
  rw [found, ← isData, follows.toReturn, follows.vAddress, follows.pfMetadata,
    follows.instrDependOnMe]
  split <;> rfl

end Entries

end ChampSim.Ptw

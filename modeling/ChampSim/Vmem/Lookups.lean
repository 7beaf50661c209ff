/-
Runs of a virtual memory, and what a lookup of a page-table entry changes that
is already mapped.

Mappings are only added, so a later call finds each of them again. A call for
an entry takes a page from the free list as soon as the active page has none
left, before it is known whether the entry needs one.
-/

import ChampSim.Library.Transition
import ChampSim.Vmem.VirtualMemory

set_option autoImplicit false

namespace ChampSim.Vmem

open Transition (Machine)

inductive Call (paging : Paging) where
  | vaToPa (cpuNum : BitVec 32) (vaddr : paging.PageNumber)
  | getPtePa (cpuNum : BitVec 32) (vaddr : paging.PageNumber) (level : BitVec 64)
deriving DecidableEq

namespace VirtualMemory

variable {paging : Paging}

def machine (paging : Paging) : Machine (VirtualMemory paging) (Call paging) where
  step memory
    | .vaToPa cpuNum vaddr => some (memory.vaToPa cpuNum vaddr).2
    | .getPtePa cpuNum vaddr level => (memory.getPtePa cpuNum vaddr level).map Prod.snd

variable {memory next : VirtualMemory paging}

/-! ### What a call changes -/

section Pop

variable (memory)

@[simp] theorem ppagePop_vpageToPpageMap :
    memory.ppagePop.vpageToPpageMap = memory.vpageToPpageMap := by
  unfold ppagePop
  split <;> rfl

@[simp] theorem ppagePop_pageTable : memory.ppagePop.pageTable = memory.pageTable := by
  unfold ppagePop
  split <;> rfl

@[simp] theorem ppagePop_activePtePage :
    memory.ppagePop.activePtePage = memory.activePtePage := by
  unfold ppagePop
  split <;> rfl

@[simp] theorem ppagePop_nextPtePage : memory.ppagePop.nextPtePage = memory.nextPtePage := by
  unfold ppagePop
  split <;> rfl

theorem ppagePop_ppageFreeList :
    memory.ppagePop.ppageFreeList =
      if memory.ppageFreeList.tail = [] then paging.freshPages else memory.ppageFreeList.tail := by
  unfold ppagePop
  split <;> rfl

@[simp] theorem refreshActive_vpageToPpageMap :
    memory.refreshActive.vpageToPpageMap = memory.vpageToPpageMap := by
  unfold refreshActive
  split
  case isTrue => rw [ppagePop_vpageToPpageMap]
  case isFalse => rfl

@[simp] theorem refreshActive_pageTable :
    memory.refreshActive.pageTable = memory.pageTable := by
  unfold refreshActive
  split
  case isTrue => rw [ppagePop_pageTable]
  case isFalse => rfl

end Pop

/-- A page of a virtual page is found, or the front of the free list becomes it. -/
theorem vaToPa_cases (memory : VirtualMemory paging) (cpuNum : BitVec 32)
    (vaddr : paging.PageNumber) :
    (∃ ppage, memory.vpageToPpageMap (cpuNum, vaddr) = some ppage ∧
      memory.vaToPa cpuNum vaddr = ((ppage, 0), memory)) ∨
    (memory.vpageToPpageMap (cpuNum, vaddr) = none ∧
      memory.vaToPa cpuNum vaddr = ((memory.ppageFront, paging.minorFaultPenalty),
        ({ memory with
          vpageToPpageMap :=
            Function.update memory.vpageToPpageMap (cpuNum, vaddr) (some memory.ppageFront)
        } : VirtualMemory paging).ppagePop)) := by
  unfold vaToPa
  cases mapped : memory.vpageToPpageMap (cpuNum, vaddr) with
  | some ppage => exact Or.inl ⟨ppage, rfl, rfl⟩
  | none => exact Or.inr ⟨rfl, rfl⟩

/-- The memory after a page-table page was given to a key. -/
def addTable (memory : VirtualMemory paging) (key : PteKey) : VirtualMemory paging :=
  { memory with
    pageTable := Function.update memory.pageTable key (some memory.nextTable)
    nextPtePage := memory.nextPtePage + 1 }

/-- An entry is found, or the next page-table page becomes that of its key. -/
theorem getPtePa_cases {cpuNum : BitVec 32} {vaddr : paging.PageNumber} {level : BitVec 64}
    {result : Address × Nat} (called : memory.getPtePa cpuNum vaddr level = some (result, next)) :
    ∃ offset, paging.getOffset (paging.pageAddress vaddr) level = some offset ∧
      ((∃ ppage, memory.pageTable (paging.pteKey cpuNum vaddr level) = some ppage ∧
        result = (paging.entryAddress ppage offset, 0) ∧ next = memory.refreshActive) ∨
      (memory.pageTable (paging.pteKey cpuNum vaddr level) = none ∧
        result = (paging.entryAddress memory.refreshActive.nextTable offset,
          paging.minorFaultPenalty) ∧
        next = memory.refreshActive.addTable (paging.pteKey cpuNum vaddr level))) := by
  unfold getPtePa at called
  obtain ⟨offset, isOffset, rest⟩ := Option.bind_eq_some_iff.mp called
  refine ⟨offset, isOffset, ?_⟩
  rw [refreshActive_pageTable] at rest
  cases mapped : memory.pageTable (paging.pteKey cpuNum vaddr level) with
  | some ppage =>
      rw [mapped] at rest
      cases rest
      exact Or.inl ⟨ppage, rfl, rfl, rfl⟩
  | none =>
      rw [mapped] at rest
      dsimp only at rest
      cases rest
      refine Or.inr ⟨rfl, rfl, ?_⟩
      unfold addTable
      rw [refreshActive_pageTable]

theorem getPtePa_mapped {cpuNum : BitVec 32} {vaddr : paging.PageNumber} {level : BitVec 64}
    {ppage : Address} {offset : Nat}
    (mapped : memory.pageTable (paging.pteKey cpuNum vaddr level) = some ppage)
    (isOffset : paging.getOffset (paging.pageAddress vaddr) level = some offset) :
    memory.getPtePa cpuNum vaddr level =
      some ((paging.entryAddress ppage offset, 0), memory.refreshActive) := by
  unfold getPtePa
  simp only [isOffset, refreshActive_pageTable, mapped, Option.bind_eq_bind, Option.bind_some]
  rfl

/-! ### Mappings are only added -/

structure Extends (memory next : VirtualMemory paging) : Prop where
  pages : ∀ owner page, memory.vpageToPpageMap owner = some page →
    next.vpageToPpageMap owner = some page
  tables : ∀ key ppage, memory.pageTable key = some ppage → next.pageTable key = some ppage

theorem extends_refl (memory : VirtualMemory paging) : memory.Extends memory :=
  ⟨fun _owner _page mapped => mapped, fun _key _ppage mapped => mapped⟩

theorem Extends.trans {last : VirtualMemory paging} (first : memory.Extends next)
    (second : next.Extends last) : memory.Extends last :=
  ⟨fun owner page mapped => second.pages owner page (first.pages owner page mapped),
    fun key ppage mapped => second.tables key ppage (first.tables key ppage mapped)⟩

private theorem update_keeps {Key Value : Type} [DecidableEq Key] {map : Key → Option Value}
    {added key : Key} {value : Value} (entry : Option Value) (vacant : map added = none)
    (mapped : map key = some value) : Function.update map added entry key = some value := by
  have differs : key ≠ added := by
    intro same
    rw [same, vacant] at mapped
    cases mapped
  rw [Function.update_of_ne differs]
  exact mapped

theorem vaToPa_extends (memory : VirtualMemory paging) (cpuNum : BitVec 32)
    (vaddr : paging.PageNumber) : memory.Extends (memory.vaToPa cpuNum vaddr).2 := by
  rcases memory.vaToPa_cases cpuNum vaddr with ⟨ppage, _mapped, result⟩ | ⟨vacant, result⟩
  · rw [result]
    exact ⟨fun _owner _page present => present, fun _key _ppage present => present⟩
  · rw [result]
    constructor
    · intro owner page present
      rw [ppagePop_vpageToPpageMap]
      exact update_keeps _ vacant present
    · intro key ppage present
      rw [ppagePop_pageTable]
      exact present

theorem vpageToPpageMap_of_vaToPa (memory : VirtualMemory paging) (cpuNum : BitVec 32)
    (vaddr : paging.PageNumber) :
    (memory.vaToPa cpuNum vaddr).2.vpageToPpageMap (cpuNum, vaddr) =
      some (memory.vaToPa cpuNum vaddr).1.1 := by
  rcases memory.vaToPa_cases cpuNum vaddr with ⟨ppage, mapped, result⟩ | ⟨_vacant, result⟩
  · rw [result]
    exact mapped
  · rw [result, ppagePop_vpageToPpageMap]
    exact Function.update_self _ _ _

theorem getPtePa_extends {cpuNum : BitVec 32} {vaddr : paging.PageNumber} {level : BitVec 64}
    {result : Address × Nat} (called : memory.getPtePa cpuNum vaddr level = some (result, next)) :
    memory.Extends next := by
  obtain ⟨offset, _isOffset, found | added⟩ := getPtePa_cases called
  · obtain ⟨_ppage, _mapped, _result, isNext⟩ := found
    rw [isNext]
    constructor
    · intro owner page present
      rw [refreshActive_vpageToPpageMap]
      exact present
    · intro key ppage present
      rw [refreshActive_pageTable]
      exact present
  · obtain ⟨vacant, _result, isNext⟩ := added
    rw [isNext]
    constructor
    · intro owner page present
      exact (congrFun memory.refreshActive_vpageToPpageMap owner).trans present
    · intro key ppage present
      unfold addTable
      dsimp only
      rw [refreshActive_pageTable]
      exact update_keeps _ vacant present

theorem step_extends (call : Call paging)
    (stepped : (machine paging).step memory call = some next) : memory.Extends next := by
  cases call with
  | vaToPa cpuNum vaddr =>
      cases stepped
      exact memory.vaToPa_extends cpuNum vaddr
  | getPtePa cpuNum vaddr level =>
      obtain ⟨called, isCalled, same⟩ := Option.map_eq_some_iff.mp stepped
      rw [← same]
      exact getPtePa_extends isCalled

theorem run_extends (calls : List (Call paging))
    (ran : (machine paging).run memory calls = some next) : memory.Extends next :=
  (machine paging).run_invariant memory.Extends
    (fun _middle call _last known stepped => known.trans (step_extends call stepped))
    calls memory next memory.extends_refl ran

/-! ### The supply of pages -/

/-- The free list is what is left of a full one, and an active page comes from it. -/
structure Supplied (memory : VirtualMemory paging) : Prop where
  suffix : memory.ppageFreeList <:+ paging.freshPages
  active : memory.nextOffset ≠ 0 → memory.activePtePage ∈ paging.freshPages

theorem Supplied.front (supplied : memory.Supplied) : memory.ppageFront ∈ paging.freshPages :=
  supplied.suffix.subset (List.head_mem memory.stocked)

theorem ppagePop_suffix (suffix : memory.ppageFreeList <:+ paging.freshPages) :
    memory.ppagePop.ppageFreeList <:+ paging.freshPages := by
  rw [ppagePop_ppageFreeList]
  split
  case isTrue => exact List.suffix_refl _
  case isFalse => exact (List.tail_suffix _).trans suffix

theorem fresh_supplied (paging : Paging) : (fresh paging).Supplied := by
  refine ⟨List.suffix_refl _, ?_⟩
  intro offset
  exact absurd (by simp [nextOffset, fresh]) offset

theorem refreshActive_supplied (supplied : memory.Supplied) :
    memory.refreshActive.ppageFreeList <:+ paging.freshPages ∧
      memory.refreshActive.activePtePage ∈ paging.freshPages := by
  unfold refreshActive
  split
  case isTrue =>
    rw [ppagePop_activePtePage]
    exact ⟨ppagePop_suffix supplied.suffix, supplied.front⟩
  case isFalse offset => exact ⟨supplied.suffix, supplied.active offset⟩

theorem getPtePa_supplied {cpuNum : BitVec 32} {vaddr : paging.PageNumber} {level : BitVec 64}
    {result : Address × Nat} (supplied : memory.Supplied)
    (called : memory.getPtePa cpuNum vaddr level = some (result, next)) :
    next.Supplied ∧ next.activePtePage ∈ paging.freshPages := by
  obtain ⟨suffix, active⟩ := refreshActive_supplied supplied
  obtain ⟨offset, _isOffset, found | added⟩ := getPtePa_cases called
  · obtain ⟨_ppage, _mapped, _result, isNext⟩ := found
    rw [isNext]
    exact ⟨⟨suffix, fun _offset => active⟩, active⟩
  · obtain ⟨_vacant, _result, isNext⟩ := added
    rw [isNext]
    exact ⟨⟨suffix, fun _offset => active⟩, active⟩

theorem vaToPa_supplied (supplied : memory.Supplied) (cpuNum : BitVec 32)
    (vaddr : paging.PageNumber) :
    (memory.vaToPa cpuNum vaddr).2.Supplied ∧
      (memory.vaToPa cpuNum vaddr).2.activePtePage = memory.activePtePage := by
  rcases memory.vaToPa_cases cpuNum vaddr with ⟨ppage, _mapped, result⟩ | ⟨_vacant, result⟩
  · rw [result]
    exact ⟨supplied, rfl⟩
  · rw [result, ppagePop_activePtePage]
    refine ⟨⟨ppagePop_suffix supplied.suffix, ?_⟩, rfl⟩
    intro offset
    rw [ppagePop_activePtePage]
    unfold nextOffset at offset
    rw [ppagePop_nextPtePage] at offset
    exact supplied.active offset

theorem step_supplied (supplied : memory.Supplied) (call : Call paging)
    (stepped : (machine paging).step memory call = some next) :
    next.Supplied ∧ (memory.activePtePage ∈ paging.freshPages →
      next.activePtePage ∈ paging.freshPages) := by
  cases call with
  | vaToPa cpuNum vaddr =>
      cases stepped
      obtain ⟨still, active⟩ := vaToPa_supplied supplied cpuNum vaddr
      refine ⟨still, ?_⟩
      intro present
      rw [active]
      exact present
  | getPtePa cpuNum vaddr level =>
      obtain ⟨called, isCalled, same⟩ := Option.map_eq_some_iff.mp stepped
      rw [← same]
      obtain ⟨still, active⟩ := getPtePa_supplied supplied isCalled
      exact ⟨still, fun _present => active⟩

theorem run_supplied (calls : List (Call paging)) (supplied : memory.Supplied)
    (ran : (machine paging).run memory calls = some next) :
    next.Supplied ∧ (memory.activePtePage ∈ paging.freshPages →
      next.activePtePage ∈ paging.freshPages) := by
  refine (machine paging).run_invariant
    (fun middle => middle.Supplied ∧ (memory.activePtePage ∈ paging.freshPages →
      middle.activePtePage ∈ paging.freshPages)) ?_ calls memory next ⟨supplied, id⟩ ran
  intro middle call last known stepped
  obtain ⟨still, active⟩ := step_supplied known.1 call stepped
  exact ⟨still, active ∘ known.2⟩

theorem refreshActive_single (supplied : memory.Supplied)
    (active : memory.activePtePage ∈ paging.freshPages) (single : paging.freshPages.length = 1) :
    memory.refreshActive = memory := by
  obtain ⟨page, only⟩ := List.length_eq_one_iff.mp single
  have suffix := supplied.suffix
  rw [only] at suffix active
  have isActive : memory.activePtePage = page := List.mem_singleton.mp active
  have whole : memory.ppageFreeList = [page] := by
    rcases List.suffix_cons_iff.mp suffix with same | nothing
    · exact same
    · exact absurd (List.suffix_nil.mp nothing) memory.stocked
  have front : memory.ppageFront = page := by
    unfold ppageFront
    simp only [whole, List.head_cons]
  obtain ⟨map, table, free, activePage, nextPage, stocked⟩ := memory
  dsimp only at whole isActive
  subst whole isActive
  unfold refreshActive
  split
  case isTrue =>
    rw [front]
    unfold ppagePop
    simp [only]
  case isFalse => rfl

theorem refreshActive_available (several : paging.freshPages.length ≠ 1)
    (offset : memory.nextOffset = 0) :
    memory.refreshActive.availablePpages ≠ memory.availablePpages := by
  have positive : 0 < memory.ppageFreeList.length := List.length_pos_iff.mpr memory.stocked
  unfold refreshActive availablePpages
  rw [if_pos offset, ppagePop_ppageFreeList]
  dsimp only
  split
  case isTrue last =>
    have sized := congrArg List.length last
    rw [List.length_tail, List.length_nil] at sized
    omega
  case isFalse =>
    rw [List.length_tail]
    omega

/-! ### Lookups -/

/-- A call finds an address without a penalty, and leaves the memory as it was. -/
def LooksUp (memory : VirtualMemory paging) (cpuNum : BitVec 32) (vaddr : paging.PageNumber)
    (level : BitVec 64) (Expected : Address → Prop) : Prop :=
  ∃ address next, memory.getPtePa cpuNum vaddr level = some ((address, 0), next) ∧
    Expected address ∧ next.availablePpages = memory.availablePpages ∧
    next.activePtePage = memory.activePtePage ∧
    next.vpageToPpageMap = memory.vpageToPpageMap ∧ next.pageTable = memory.pageTable

theorem pageTable_of_getPtePa {cpuNum : BitVec 32} {vaddr : paging.PageNumber}
    {level : BitVec 64} {result : Address × Nat}
    (called : memory.getPtePa cpuNum vaddr level = some (result, next)) :
    ∃ ppage offset, next.pageTable (paging.pteKey cpuNum vaddr level) = some ppage ∧
      paging.getOffset (paging.pageAddress vaddr) level = some offset ∧
      result.1 = paging.entryAddress ppage offset := by
  obtain ⟨offset, isOffset, found | added⟩ := getPtePa_cases called
  · obtain ⟨ppage, mapped, isResult, isNext⟩ := found
    rw [isNext, isResult, refreshActive_pageTable]
    exact ⟨ppage, offset, mapped, isOffset, rfl⟩
  · obtain ⟨_vacant, isResult, isNext⟩ := added
    rw [isNext, isResult]
    exact ⟨_, offset, Function.update_self _ _ _, isOffset, rfl⟩

/-- A call for an entry that an earlier call mapped gives the address of that call and leaves the
memory as it was, exactly when the active page has a part left or there is only one page. -/
theorem lookup_iff (paging : Paging) (before after : List (Call paging))
    (middle mapped last : VirtualMemory paging) (cpuNum : BitVec 32)
    (earlier vaddr : paging.PageNumber) (level : BitVec 64) (result : Address × Nat)
    (ranBefore : (machine paging).run (fresh paging) before = some middle)
    (called : middle.getPtePa cpuNum earlier level = some (result, mapped))
    (ranAfter : (machine paging).run mapped after = some last)
    (same : paging.pteKey cpuNum vaddr level = paging.pteKey cpuNum earlier level) :
    LooksUp last cpuNum vaddr level (fun address => vaddr = earlier → address = result.1) ↔
      last.nextOffset ≠ 0 ∨ paging.freshPages.length = 1 := by
  have supplied := (run_supplied before (fresh_supplied paging) ranBefore).1
  obtain ⟨mappedSupplied, active⟩ := getPtePa_supplied supplied called
  obtain ⟨lastSupplied, stillActive⟩ := run_supplied after mappedSupplied ranAfter
  obtain ⟨ppage, offset, isMapped, isOffset, isResult⟩ := pageTable_of_getPtePa called
  have present := (run_extends after ranAfter).tables _ ppage isMapped
  rw [← same] at present
  obtain ⟨offsetToo, isOffsetToo⟩ : ∃ offsetToo,
      paging.getOffset (paging.pageAddress vaddr) level = some offsetToo := by
    unfold Paging.getOffset at isOffset ⊢
    split at isOffset
    case isTrue representable => exact ⟨_, if_pos representable⟩
    case isFalse => cases isOffset
  have found := getPtePa_mapped present isOffsetToo
  have expected : vaddr = earlier → paging.entryAddress ppage offsetToo = result.1 := by
    intro sameAddress
    rw [sameAddress, isOffset] at isOffsetToo
    cases isOffsetToo
    exact isResult.symm
  constructor
  · rintro ⟨address, next, calledAgain, _expected, available, _frame⟩
    rw [found] at calledAgain
    cases calledAgain
    by_cases single : paging.freshPages.length = 1
    · exact Or.inr single
    · refine Or.inl ?_
      intro offsetZero
      exact refreshActive_available single offsetZero available
  · intro condition
    have unchanged : last.refreshActive = last := by
      rcases condition with part | single
      · exact if_neg part
      · exact refreshActive_single lastSupplied (stillActive active) single
    rw [unchanged] at found
    exact ⟨_, last, found, expected, rfl, rfl, rfl, rfl⟩

/-- Two mebibytes of memory with pages of 4 KiB, in order. -/
def twoMebibytes (ptePageSize : Nat) (large : 1024 < ptePageSize * 8)
    (power : 1 <<< ptePageSize.log2 = ptePageSize) (ordered : (ptePageSize * 8).log2 ≤ 12) :
    Paging where
  log2PageSize := 12
  ptePageSize
  ptLevels := 5
  minorFaultPenalty := 200
  dramSize := 2 ^ 21
  shuffle := id
  permutes := fun _pages => List.Perm.refl _
  pageSize := by decide
  large
  power
  ordered
  memory := by decide
  representable := by decide
  stocked := by decide

/-- Page tables of half a page. -/
theorem lookup_iff_halfPage :
    ∃ mapped, ∃ result : Address × Nat, (fresh (twoMebibytes 256 (by decide) (by decide) (by decide))).getPtePa
        0 0x12345 1 = some (result, mapped) ∧
      LooksUp mapped 0 0x12345 1 (fun address => address = result.1) := by
  have called : ((fresh (twoMebibytes 256 (by decide) (by decide) (by decide))).getPtePa
      0 0x12345 1).map (fun call => call.2.nextOffset) = some 2048 := by
    decide +kernel
  obtain ⟨⟨result, mapped⟩, isCalled, offset⟩ := Option.map_eq_some_iff.mp called
  have part : mapped.nextOffset ≠ 0 := by
    rw [offset]
    decide
  obtain ⟨address, next, found, expected, frame⟩ :=
    (lookup_iff _ [] [] _ mapped mapped 0 0x12345 0x12345 1 result rfl isCalled rfl rfl).mpr
      (Or.inl part)
  exact ⟨mapped, result, isCalled, address, next, found, expected rfl, frame⟩

/-- With page tables of a whole page, the second of two equal calls takes a page. -/
theorem lookup_takesPage :
    ∃ mapped, ∃ result : Address × Nat, (fresh (twoMebibytes 512 (by decide) (by decide) (by decide))).getPtePa
        0 0x12345 1 = some (result, mapped) ∧
      ¬ LooksUp mapped 0 0x12345 1 (fun address => address = result.1) := by
  have called : ((fresh (twoMebibytes 512 (by decide) (by decide) (by decide))).getPtePa
      0 0x12345 1).map (fun call => (call.2.availablePpages,
        (call.2.getPtePa 0 0x12345 1).map (fun again => again.2.availablePpages))) =
      some (255, some 254) := by
    decide +kernel
  obtain ⟨⟨result, mapped⟩, isCalled, counts⟩ := Option.map_eq_some_iff.mp called
  obtain ⟨first, second⟩ := Prod.ext_iff.mp counts
  refine ⟨mapped, result, isCalled, ?_⟩
  rintro ⟨address, next, calledAgain, _expected, available, _frame⟩
  rw [calledAgain] at second
  have counted : next.availablePpages = 254 := Option.some.inj second
  have before : mapped.availablePpages = 255 := first
  rw [counted, before] at available
  cases available

end VirtualMemory

end ChampSim.Vmem

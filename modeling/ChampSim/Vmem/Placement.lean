/-
What each page of the first free list is used for.

Pages leave the list in its order. A page that left it belongs to a virtual
page, or holds page tables, or was taken and never used. Page tables are placed
in the active page one after another.
-/

import ChampSim.Vmem.Regions

set_option autoImplicit false

namespace ChampSim.Vmem

namespace VirtualMemory

variable {paging : Paging} {memory next : VirtualMemory paging} {taken : Nat}

def takes (memory : VirtualMemory paging) : Call paging → Nat
  | .vaToPa cpuNum vaddr => if (memory.vpageToPpageMap (cpuNum, vaddr)).isSome then 0 else 1
  | .getPtePa _cpuNum _vaddr _level => if memory.nextOffset = 0 then 1 else 0

/-- A page-table page is a part of a page that was taken, and not for data. -/
structure Held (memory : VirtualMemory paging) (taken : Nat) (ppage : Address)
    (page : paging.PageNumber) (slot : Nat) : Prop where
  member : page ∈ paging.freshPages.take taken
  small : slot < paging.parts
  place : ppage.toNat = paging.partNumber page slot * 2 ^ paging.log2PtePage
  apart : ∀ owner, memory.vpageToPpageMap owner ≠ some page

/-- Each page is used once, and so is each part. `Begun` is whether the active page has parts
left. -/
structure Placed (memory : VirtualMemory paging) (taken : Nat) (Begun : Prop) : Prop where
  data : ∀ owner page, memory.vpageToPpageMap owner = some page →
    page ∈ paging.freshPages.take taken
  owners : ∀ owner other page, memory.vpageToPpageMap owner = some page →
    memory.vpageToPpageMap other = some page → owner = other
  table : ∀ key ppage, memory.pageTable key = some ppage →
    ∃ page slot, Held memory taken ppage page slot ∧
      (Begun → page = memory.activePtePage → slot < memory.nextPtePage.toNat)
  keys : ∀ key other ppage, memory.pageTable key = some ppage →
    memory.pageTable other = some ppage → key = other
  active : Begun → memory.activePtePage ∈ paging.freshPages.take taken ∧
    ∀ owner, memory.vpageToPpageMap owner ≠ some memory.activePtePage
  free : taken < paging.freshPages.length →
    memory.ppageFreeList = paging.freshPages.drop taken

theorem Held.mono {ppage : Address} {page : paging.PageNumber} {slot more : Nat}
    (held : Held memory taken ppage page slot) (later : taken ≤ more)
    (apart : ∀ owner, next.vpageToPpageMap owner ≠ some page) :
    Held next more ppage page slot :=
  ⟨(List.take_prefix_take_left later).subset held.member, held.small, held.place, apart⟩

namespace Placed

variable {Begun : Prop}

theorem front (placed : Placed memory taken Begun) (left : taken < paging.freshPages.length) :
    paging.freshPages.take (taken + 1) = paging.freshPages.take taken ++ [memory.ppageFront] ∧
      memory.ppageFront ∉ paging.freshPages.take taken := by
  have isFront : memory.ppageFront = paging.freshPages[taken] := by
    unfold ppageFront
    have whole := placed.free left
    have stocked := memory.stocked
    simp only [whole] at stocked ⊢
    rw [List.head_drop]
  have split : paging.freshPages.take (taken + 1) =
      paging.freshPages.take taken ++ [memory.ppageFront] := by
    rw [isFront]
    exact List.take_succ_eq_append_getElem left
  refine ⟨split, ?_⟩
  have once := paging.freshPages_nodup.sublist (List.take_sublist (taken + 1) _)
  rw [split, List.nodup_append] at once
  intro member
  exact once.2.2 _ member _ (List.mem_singleton_self _) rfl

theorem pop_free (placed : Placed memory taken Begun)
    (left : taken + 1 < paging.freshPages.length)
    (same : next.ppageFreeList = memory.ppageFreeList) :
    next.ppagePop.ppageFreeList = paging.freshPages.drop (taken + 1) := by
  have rest : memory.ppageFreeList.tail = paging.freshPages.drop (taken + 1) := by
    rw [placed.free (Nat.lt_of_succ_lt left), List.tail_drop]
  rw [ppagePop_ppageFreeList, same, rest, if_neg ?_]
  rw [List.drop_eq_nil_iff]
  exact Nat.not_le_of_lt left

theorem front_differs (placed : Placed memory taken Begun)
    (left : taken < paging.freshPages.length) {page : paging.PageNumber}
    (member : page ∈ paging.freshPages.take taken) : page ≠ memory.ppageFront := by
  intro same
  rw [same] at member
  exact (placed.front left).2 member

theorem take_succ (placed : Placed memory taken Begun)
    (left : taken < paging.freshPages.length) :
    (∀ page ∈ paging.freshPages.take taken, page ∈ paging.freshPages.take (taken + 1)) ∧
      memory.ppageFront ∈ paging.freshPages.take (taken + 1) := by
  rw [(placed.front left).1]
  exact ⟨fun _page member => List.mem_append_left _ member,
    List.mem_append_right _ (List.mem_singleton_self _)⟩

end Placed

/-! ### What each call uses -/

theorem fresh_placed (paging : Paging) : Placed (fresh paging) 0 ((fresh paging).nextOffset ≠ 0) := by
  refine ⟨?_, ?_, ?_, ?_, ?_, fun _left => rfl⟩
  · intro owner page mapped
    cases mapped
  · intro owner other page mapped
    cases mapped
  · intro key ppage mapped
    cases mapped
  · intro key other ppage mapped
    cases mapped
  · intro offset
    exact absurd (by simp [nextOffset, fresh]) offset

theorem vaToPa_placed {Begun : Prop} (placed : Placed memory taken Begun)
    (left : taken < paging.freshPages.length) (cpuNum : BitVec 32) (vaddr : paging.PageNumber)
    (vacant : memory.vpageToPpageMap (cpuNum, vaddr) = none) :
    Placed (memory.vaToPa cpuNum vaddr).2 (taken + 1) Begun := by
  obtain ⟨kept, frontKept⟩ := placed.take_succ left
  have result : memory.vaToPa cpuNum vaddr = ((memory.ppageFront, paging.minorFaultPenalty),
      ({ memory with
        vpageToPpageMap :=
          Function.update memory.vpageToPpageMap (cpuNum, vaddr) (some memory.ppageFront)
      } : VirtualMemory paging).ppagePop) := by
    unfold vaToPa
    rw [vacant]
  have owned : ∀ owner page,
      (memory.vaToPa cpuNum vaddr).2.vpageToPpageMap owner = some page →
      (owner = (cpuNum, vaddr) ∧ page = memory.ppageFront) ∨
        (page ∈ paging.freshPages.take taken ∧ memory.vpageToPpageMap owner = some page) := by
    intro owner page mapped
    rw [result, ppagePop_vpageToPpageMap] at mapped
    dsimp only at mapped
    by_cases isOwner : owner = (cpuNum, vaddr)
    · rw [isOwner, Function.update_self] at mapped
      exact Or.inl ⟨isOwner, (Option.some.inj mapped).symm⟩
    · rw [Function.update_of_ne isOwner] at mapped
      exact Or.inr ⟨placed.data owner page mapped, mapped⟩
  have apart : ∀ page ∈ paging.freshPages.take taken,
      (∀ owner, memory.vpageToPpageMap owner ≠ some page) →
      ∀ owner, (memory.vaToPa cpuNum vaddr).2.vpageToPpageMap owner ≠ some page := by
    intro page member unowned owner mapped
    rcases owned owner page mapped with ⟨_isOwner, isFront⟩ | ⟨_member, before⟩
    · exact placed.front_differs left member isFront
    · exact unowned owner before
  have frame : (memory.vaToPa cpuNum vaddr).2.pageTable = memory.pageTable ∧
      (memory.vaToPa cpuNum vaddr).2.activePtePage = memory.activePtePage ∧
      (memory.vaToPa cpuNum vaddr).2.nextPtePage = memory.nextPtePage := by
    rw [result, ppagePop_pageTable, ppagePop_activePtePage, ppagePop_nextPtePage]
    exact ⟨rfl, rfl, rfl⟩
  obtain ⟨tables, active, nextPage⟩ := frame
  refine ⟨?_, ?_, ?_, ?_, ?_, ?_⟩
  · intro owner page mapped
    rcases owned owner page mapped with ⟨_isOwner, isFront⟩ | ⟨member, _before⟩
    · rw [isFront]
      exact frontKept
    · exact kept page member
  · intro owner other page mapped mappedToo
    rcases owned owner page mapped with ⟨isOwner, isFront⟩ | ⟨member, before⟩
    · rcases owned other page mappedToo with ⟨isOther, _isFront⟩ | ⟨member, _before⟩
      · exact isOwner.trans isOther.symm
      · exact absurd isFront (placed.front_differs left member)
    · rcases owned other page mappedToo with ⟨_isOther, isFront⟩ | ⟨_member, beforeToo⟩
      · exact absurd isFront (placed.front_differs left member)
      · exact placed.owners owner other page before beforeToo
  · intro key ppage mapped
    rw [tables] at mapped
    obtain ⟨page, slot, held, below⟩ := placed.table key ppage mapped
    rw [active, nextPage]
    exact ⟨page, slot, held.mono (Nat.le_succ taken) (apart page held.member held.apart), below⟩
  · rw [tables]
    exact placed.keys
  · intro begun
    obtain ⟨member, unowned⟩ := placed.active begun
    rw [active]
    exact ⟨kept _ member, apart _ member unowned⟩
  · intro more
    rw [result]
    exact placed.pop_free more rfl

theorem refreshActive_placed (placed : Placed memory taken (memory.nextOffset ≠ 0))
    (within : taken + (if memory.nextOffset = 0 then 1 else 0) ≤ paging.freshPages.length) :
    Placed memory.refreshActive (taken + if memory.nextOffset = 0 then 1 else 0) True := by
  by_cases offset : memory.nextOffset = 0
  · rw [if_pos offset] at within ⊢
    obtain ⟨kept, frontKept⟩ := placed.take_succ within
    have isNext : memory.refreshActive =
        ({ memory with activePtePage := memory.ppageFront } : VirtualMemory paging).ppagePop :=
      if_pos offset
    have active : memory.refreshActive.activePtePage = memory.ppageFront := by
      rw [isNext, ppagePop_activePtePage]
    refine ⟨?_, ?_, ?_, ?_, ?_, ?_⟩
    · intro owner page mapped
      rw [refreshActive_vpageToPpageMap] at mapped
      exact kept page (placed.data owner page mapped)
    · rw [refreshActive_vpageToPpageMap]
      exact placed.owners
    · intro key ppage mapped
      rw [refreshActive_pageTable] at mapped
      obtain ⟨page, slot, held, _below⟩ := placed.table key ppage mapped
      refine ⟨page, slot, held.mono (Nat.le_succ taken) ?_, ?_⟩
      · rw [refreshActive_vpageToPpageMap]
        exact held.apart
      · intro _begun isActive
        rw [active] at isActive
        exact absurd isActive (placed.front_differs within held.member)
    · rw [refreshActive_pageTable]
      exact placed.keys
    · intro _begun
      rw [active, refreshActive_vpageToPpageMap]
      refine ⟨frontKept, ?_⟩
      intro owner mapped
      exact placed.front_differs within (placed.data owner _ mapped) rfl
    · intro more
      rw [isNext]
      exact placed.pop_free more rfl
  · rw [if_neg offset]
    have isNext : memory.refreshActive = memory := if_neg offset
    rw [isNext]
    refine ⟨placed.data, placed.owners, ?_, placed.keys, fun _begun => placed.active offset,
      placed.free⟩
    intro key ppage mapped
    obtain ⟨page, slot, held, below⟩ := placed.table key ppage mapped
    exact ⟨page, slot, held, fun _begun => below offset⟩

theorem nextOffset_eq (memory : VirtualMemory paging) :
    memory.nextOffset = memory.nextPtePage.toNat * 2 ^ paging.log2PtePage := by
  unfold nextOffset
  exact Nat.shiftLeft_eq _ _

theorem nextOffset_ne (memory : VirtualMemory paging) :
    memory.nextOffset ≠ 0 ↔ memory.nextPtePage ≠ 0 := by
  rw [nextOffset_eq, Nat.mul_ne_zero_iff, and_iff_left (Nat.two_pow_pos _).ne']
  refine not_congr ⟨?_, ?_⟩
  · intro zero
    exact BitVec.eq_of_toNat_eq zero
  · intro zero
    rw [zero]
    rfl

theorem nextTable_toNat (memory : VirtualMemory paging) :
    memory.nextTable.toNat =
      paging.partNumber memory.activePtePage memory.nextPtePage.toNat *
        2 ^ paging.log2PtePage := by
  have small : memory.nextOffset < 2 ^ paging.log2PageSize := by
    rw [nextOffset_eq, ← paging.parts_mul]
    exact Nat.mul_lt_mul_of_pos_right memory.nextPtePage.isLt (Nat.two_pow_pos _)
  have representable : 2 ^ paging.log2PageSize < 2 ^ 64 := by
    have pageSize := paging.pageSize
    exact Nat.pow_lt_pow_right (by decide) (by omega)
  have isOffset : (BitVec.ofNat 64 memory.nextOffset).toNat = memory.nextOffset := by
    rw [BitVec.toNat_ofNat]
    exact Nat.mod_eq_of_lt (small.trans representable)
  unfold nextTable
  rw [Address.splice_toNat (paging.pageAddress_toNat _) (by rw [isOffset]; exact small), isOffset,
    paging.pageAddress_toNat, nextOffset_eq, ← paging.parts_mul, ← Nat.mul_assoc, ← Nat.add_mul]
  rfl

private theorem toNat_succ {width : Nat} {number : BitVec width} (grows : number + 1 ≠ 0) :
    (number + 1).toNat = number.toNat + 1 := by
  have inside := number.isLt
  have sum : (number + 1).toNat = (number.toNat + 1 % 2 ^ width) % 2 ^ width :=
    BitVec.toNat_add number 1
  have positive : (number + 1).toNat ≠ 0 := by
    intro zero
    exact grows (BitVec.eq_of_toNat_eq zero)
  cases width with
  | zero =>
      rw [Nat.pow_zero, Nat.mod_one] at sum
      exact absurd sum positive
  | succ width =>
      rw [Nat.mod_eq_of_lt (Nat.one_lt_two_pow (Nat.succ_ne_zero width))] at sum
      by_cases last : number.toNat + 1 = 2 ^ (width + 1)
      · rw [last, Nat.mod_self] at sum
        exact absurd sum positive
      · rw [sum]
        exact Nat.mod_eq_of_lt (by omega)

theorem addTable_placed (placed : Placed memory taken True) (key : PteKey) :
    Placed (memory.addTable key) taken ((memory.addTable key).nextOffset ≠ 0) := by
  obtain ⟨activeMember, activeApart⟩ := placed.active trivial
  have here : Held memory taken memory.nextTable memory.activePtePage
      memory.nextPtePage.toNat :=
    ⟨activeMember, memory.nextPtePage.isLt, memory.nextTable_toNat, activeApart⟩
  have unused : ∀ other, memory.pageTable other ≠ some memory.nextTable := by
    intro other mapped
    obtain ⟨page, slot, held, below⟩ := placed.table other _ mapped
    have samePlace := Nat.eq_of_mul_eq_mul_right (Nat.two_pow_pos _)
      (held.place.symm.trans memory.nextTable_toNat)
    obtain ⟨samePage, sameSlot⟩ := paging.partNumber_inj held.small here.small samePlace
    exact absurd sameSlot (below trivial samePage).ne
  have owned : ∀ other ppage, (memory.addTable key).pageTable other = some ppage →
      (other = key ∧ ppage = memory.nextTable) ∨ memory.pageTable other = some ppage := by
    intro other ppage mapped
    unfold addTable at mapped
    dsimp only at mapped
    by_cases isKey : other = key
    · rw [isKey, Function.update_self] at mapped
      exact Or.inl ⟨isKey, (Option.some.inj mapped).symm⟩
    · rw [Function.update_of_ne isKey] at mapped
      exact Or.inr mapped
  have grown : (memory.addTable key).nextOffset ≠ 0 →
      (memory.addTable key).nextPtePage.toNat = memory.nextPtePage.toNat + 1 := by
    intro offset
    rw [nextOffset_ne] at offset
    exact toNat_succ offset
  refine ⟨placed.data, placed.owners, ?_, ?_, fun _begun => placed.active trivial, placed.free⟩
  · intro other ppage mapped
    rcases owned other ppage mapped with ⟨_isKey, isNext⟩ | before
    · rw [isNext]
      refine ⟨_, _, here.mono (Nat.le_refl taken) activeApart, ?_⟩
      intro offset _isActive
      rw [grown offset]
      exact Nat.lt_succ_self _
    · obtain ⟨page, slot, held, below⟩ := placed.table other ppage before
      refine ⟨page, slot, held.mono (Nat.le_refl taken) held.apart, ?_⟩
      intro offset isActive
      rw [grown offset]
      exact Nat.lt_succ_of_lt (below trivial isActive)
  · intro one other ppage mapped mappedToo
    rcases owned one ppage mapped with ⟨isKey, isNext⟩ | before
    · rcases owned other ppage mappedToo with ⟨isKeyToo, _isNext⟩ | before
      · exact isKey.trans isKeyToo.symm
      · rw [isNext] at before
        exact absurd before (unused other)
    · rcases owned other ppage mappedToo with ⟨_isKey, isNext⟩ | beforeToo
      · rw [isNext] at before
        exact absurd before (unused one)
      · exact placed.keys one other ppage before beforeToo

/-! ### Runs -/

theorem Placed.weaken {Begun Other : Prop} (placed : Placed memory taken Begun)
    (implied : Other → Begun) : Placed memory taken Other := by
  refine ⟨placed.data, placed.owners, ?_, placed.keys, placed.active ∘ implied, placed.free⟩
  intro key ppage mapped
  obtain ⟨page, slot, held, below⟩ := placed.table key ppage mapped
  exact ⟨page, slot, held, below ∘ implied⟩

theorem step_placed (placed : Placed memory taken (memory.nextOffset ≠ 0)) (call : Call paging)
    (within : taken + memory.takes call ≤ paging.freshPages.length)
    (stepped : (machine paging).step memory call = some next) :
    Placed next (taken + memory.takes call) (next.nextOffset ≠ 0) := by
  cases call with
  | vaToPa cpuNum vaddr =>
      cases stepped
      have count : memory.takes (.vaToPa cpuNum vaddr) =
          if (memory.vpageToPpageMap (cpuNum, vaddr)).isSome then 0 else 1 := rfl
      cases mapped : memory.vpageToPpageMap (cpuNum, vaddr) with
      | some ppage =>
          have result : (memory.vaToPa cpuNum vaddr).2 = memory := by
            unfold vaToPa
            rw [mapped]
          rw [mapped] at count
          rw [result, count]
          exact placed
      | none =>
          have sameNext : (memory.vaToPa cpuNum vaddr).2.nextOffset = memory.nextOffset := by
            unfold vaToPa nextOffset
            rw [mapped, ppagePop_nextPtePage]
          rw [mapped] at count
          rw [count] at within ⊢
          rw [sameNext]
          exact vaToPa_placed placed within cpuNum vaddr mapped
  | getPtePa cpuNum vaddr level =>
      obtain ⟨called, isCalled, same⟩ := Option.map_eq_some_iff.mp stepped
      have active := refreshActive_placed placed within
      obtain ⟨offset, _isOffset, found | added⟩ := getPtePa_cases isCalled
      · obtain ⟨_ppage, _mapped, _result, isNext⟩ := found
        rw [← same, isNext]
        exact active.weaken (fun _begun => trivial)
      · obtain ⟨_vacant, _result, isNext⟩ := added
        rw [← same, isNext]
        exact addTable_placed active _

def countTaken (memory : VirtualMemory paging) (call : Call paging) (taken : Nat) : Nat :=
  taken + memory.takes call

/-- Up to the end of the first free list, each page and each part is used once. -/
theorem run_placed (calls : List (Call paging))
    (ran : ((machine paging).record countTaken).run (fresh paging, 0) calls = some (memory, taken))
    (within : taken ≤ paging.freshPages.length) :
    Placed memory taken (memory.nextOffset ≠ 0) := by
  refine ((machine paging).record countTaken).run_invariant
    (fun state => state.2 ≤ paging.freshPages.length →
      Placed state.1 state.2 (state.1.nextOffset ≠ 0)) ?_ calls _ _
    (fun _within => fresh_placed paging) ran within
  intro state call next known stepped
  obtain ⟨moved, counted⟩ := (Transition.Machine.record_step_iff _ _ _ _ _).mp stepped
  rw [← counted]
  intro still
  exact step_placed (known (Nat.le_of_add_right_le still)) call still moved

structure Apart (memory : VirtualMemory paging) : Prop where
  pages : ∀ owner other page, memory.vpageToPpageMap owner = some page →
    memory.vpageToPpageMap other = some page → owner = other
  tables : ∀ key other ppage ppageToo, memory.pageTable key = some ppage →
    memory.pageTable other = some ppageToo → key ≠ other →
    Disjoint (paging.tableBytes ppage) (paging.tableBytes ppageToo)
  separate : ∀ owner page key ppage, memory.vpageToPpageMap owner = some page →
    memory.pageTable key = some ppage →
    Disjoint (paging.pageBytes page) (paging.tableBytes ppage)

theorem Placed.apart {Begun : Prop} (placed : Placed memory taken Begun) : Apart memory := by
  refine ⟨placed.owners, ?_, ?_⟩
  · intro key other ppage ppageToo mapped mappedToo differ
    obtain ⟨page, slot, held, _below⟩ := placed.table key ppage mapped
    obtain ⟨pageToo, slotToo, heldToo, _belowToo⟩ := placed.table other ppageToo mappedToo
    apply paging.tableBytes_disjoint held.place heldToo.place
    intro samePart
    have sameAddress : ppage = ppageToo := by
      apply BitVec.eq_of_toNat_eq
      rw [held.place, heldToo.place, samePart]
    rw [sameAddress] at mapped
    exact differ (placed.keys key other ppageToo mapped mappedToo)
  · intro owner page key ppage mapped mappedToo
    obtain ⟨holder, slot, held, _below⟩ := placed.table key ppage mappedToo
    apply paging.pageBytes_disjoint held.place held.small
    intro same
    rw [same] at mapped
    exact held.apart owner mapped

/-- An address that a call returns is in the page-table page of its key. -/
theorem Placed.entry {Begun : Prop} (placed : Placed memory taken Begun) {cpuNum : BitVec 32}
    {vaddr : paging.PageNumber} {level : BitVec 64} {result : Address × Nat}
    (called : memory.getPtePa cpuNum vaddr level = some (result, next)) :
    ∃ ppage, next.pageTable (paging.pteKey cpuNum vaddr level) = some ppage ∧
      result.1.toNat ∈ paging.tableBytes ppage := by
  obtain ⟨offset, isOffset, found | added⟩ := getPtePa_cases called
  · obtain ⟨ppage, mapped, isResult, isNext⟩ := found
    obtain ⟨page, slot, held, _below⟩ := placed.table _ ppage mapped
    rw [isNext, isResult, refreshActive_pageTable]
    exact ⟨ppage, mapped, paging.entryAddress_mem held.place (paging.getOffset_lt isOffset)⟩
  · obtain ⟨_vacant, isResult, isNext⟩ := added
    rw [isNext, isResult]
    exact ⟨_, Function.update_self _ _ _,
      paging.entryAddress_mem (nextTable_toNat _) (paging.getOffset_lt isOffset)⟩

/-- Up to the end of the first free list no byte belongs to two virtual pages or page tables, an
entry is in the page table of its key, and every mapping stays. -/
theorem run_apart (paging : Paging) (calls : List (Call paging)) (memory : VirtualMemory paging)
    (taken : Nat)
    (ran : ((machine paging).record countTaken).run (fresh paging, 0) calls = some (memory, taken))
    (within : taken ≤ paging.freshPages.length) :
    Apart memory ∧
    (∀ cpuNum vaddr level result next,
      memory.getPtePa cpuNum vaddr level = some (result, next) →
      ∃ ppage, next.pageTable (paging.pteKey cpuNum vaddr level) = some ppage ∧
        result.1.toNat ∈ paging.tableBytes ppage) ∧
    ∀ more last, (machine paging).run memory more = some last →
      (∀ cpuNum vaddr page, memory.vpageToPpageMap (cpuNum, vaddr) = some page →
        last.vaToPa cpuNum vaddr = ((page, 0), last)) ∧
      ∀ cpuNum vaddr level ppage offset,
        memory.pageTable (paging.pteKey cpuNum vaddr level) = some ppage →
        paging.getOffset (paging.pageAddress vaddr) level = some offset →
        ∃ next, last.getPtePa cpuNum vaddr level =
          some ((paging.entryAddress ppage offset, 0), next) := by
  have placed := run_placed calls ran within
  refine ⟨placed.apart, fun _cpuNum _vaddr _level _result _next called => placed.entry called, ?_⟩
  intro more last ranMore
  have kept := run_extends more ranMore
  constructor
  · intro cpuNum vaddr page mapped
    unfold vaToPa
    rw [kept.pages _ page mapped]
  · intro cpuNum vaddr level ppage offset mapped isOffset
    exact ⟨_, getPtePa_mapped (kept.tables _ ppage mapped) isOffset⟩

/-- Two entries in the halves of one page, a page for data, and an entry after them. -/
theorem run_apart_halves :
    ∃ memory taken, ((machine (twoMebibytes 256 (by decide) (by decide) (by decide))).record
        countTaken).run (fresh _, 0)
        [.getPtePa 0 0x12345 1, .getPtePa 0 0x54321 1, .vaToPa 1 0x12345,
          .getPtePa 0 0x12345 2] = some (memory, taken) ∧ taken = 3 ∧ Apart memory := by
  have counted : (((machine (twoMebibytes 256 (by decide) (by decide) (by decide))).record
      countTaken).run (fresh _, 0)
      [.getPtePa 0 0x12345 1, .getPtePa 0 0x54321 1, .vaToPa 1 0x12345,
        .getPtePa 0 0x12345 2]).map Prod.snd = some 3 := by
    decide +kernel
  obtain ⟨⟨memory, taken⟩, ran, isTaken⟩ := Option.map_eq_some_iff.mp counted
  refine ⟨memory, taken, ran, isTaken, (run_apart _ _ memory taken ran ?_).1⟩
  rw [show taken = 3 from isTaken, Paging.freshPages_length]
  decide +kernel

end VirtualMemory

end ChampSim.Vmem

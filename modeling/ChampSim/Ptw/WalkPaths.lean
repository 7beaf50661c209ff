/-
The addresses of a walk, and those of a walk from CR3.

A table keeps the address of the entry of its own level, but a hit starts at
that level and not below it. So a walk that starts from a table first requests
an entry of the page of its level, where the entry above was due, and then the
end of the walk from CR3.
-/

import ChampSim.Ptw.WalkRuns

set_option autoImplicit false

namespace ChampSim.Ptw

open Vmem (Paging VirtualMemory)

variable {config : PtwConfig}

theorem EntryAt.found {vmem next : VirtualMemory config.paging} {cpu level : Nat}
    {vaddr address : Address} {result : Address × Nat} (entry : EntryAt vmem cpu vaddr level address)
    (called : vmem.getPtePa (BitVec.ofNat 32 cpu) (config.paging.pageNumber vaddr)
      (BitVec.ofNat 64 level) = some (result, next)) : result.1 = address := by
  obtain ⟨ppage, offset, mapped, isOffset, isAddress⟩ := entry
  rw [VirtualMemory.getPtePa_mapped mapped isOffset] at called
  cases called
  exact isAddress.symm

namespace PageTableWalker

theorem suffix_cons_iff {rest whole : List Address} (ends : rest <:+ whole) (first : Address)
    (above : Nat) (sized : rest.length + above + 1 = whole.length) :
    first :: rest <:+ whole ↔ whole[above]? = some first := by
  obtain ⟨front, same⟩ := ends
  rw [← same, List.length_append] at sized
  have last : front.length = above + 1 := by omega
  have top : above < front.length := by omega
  rw [← same, List.getElem?_append_left top, List.getElem?_eq_getElem top, Option.some.injEq]
  have split : front = front.take above ++ [front[above]] := by
    rw [List.take_append_getElem, ← last, List.take_length]
  constructor
  · rintro ⟨earlier, equal⟩
    rw [List.append_cons] at equal
    have fronts := List.append_cancel_right equal
    have tops := congrArg (fun items => items[above]?) fronts
    have before : earlier.length = above := by
      have lengths := congrArg List.length fronts
      rw [List.length_append, List.length_singleton, last] at lengths
      omega
    rw [← before, List.getElem?_concat_length] at tops
    obtain ⟨_within, isTop⟩ := List.getElem?_eq_some_iff.mp tops.symm
    simpa only [before] using isTop
  · intro isFirst
    refine ⟨front.take above, ?_⟩
    rw [← isFirst, List.append_cons, ← split]

end PageTableWalker

end ChampSim.Ptw

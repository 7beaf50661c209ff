/-
The bytes that pages and page tables own, up to the end of the first free list.

A page-table page is one of the equal parts of a physical page, and parts that
differ share no byte. Each page leaves the free list once, so a page that is
taken was not used before.
-/

import ChampSim.Vmem.Lookups
import Mathlib.Order.CompletePartialOrder
import Mathlib.Data.Set.Lattice

set_option autoImplicit false

namespace ChampSim.Vmem

open Transition (Machine)

/-! ### The numbers of pages and of parts -/

namespace Paging

variable (paging : Paging)

theorem ptePage_eq : paging.log2PtePage = 3 + paging.log2Entries := by
  have power := paging.power
  rw [Nat.one_shiftLeft] at power
  unfold log2PtePage log2Entries
  rw [show paging.ptePageSize * 8 = 2 ^ (3 + paging.ptePageSize.log2) by
    rw [Nat.pow_add, power]
    omega]
  exact Nat.log2_two_pow

theorem pageAddress_toNat (page : paging.PageNumber) :
    (paging.pageAddress page).toNat = page.toNat * 2 ^ paging.log2PageSize := by
  have narrow : paging.log2PageSize ≤ 64 := by
    have small := paging.pageSize
    omega
  have fits : page.toNat * 2 ^ paging.log2PageSize < 2 ^ 64 := by
    have scaled := Nat.mul_lt_mul_of_pos_right page.isLt (Nat.two_pow_pos paging.log2PageSize)
    rw [← Nat.pow_add, Nat.sub_add_cancel narrow] at scaled
    exact scaled
  have inside : page.toNat < 2 ^ 64 :=
    Nat.lt_of_le_of_lt (Nat.le_mul_of_pos_right _ (Nat.two_pow_pos _)) fits
  unfold pageAddress
  rw [BitVec.toNat_shiftLeft, BitVec.toNat_setWidth, Nat.mod_eq_of_lt inside, Nat.shiftLeft_eq,
    Nat.mod_eq_of_lt fits]

def parts : Nat := 2 ^ (paging.log2PageSize - paging.log2PtePage)

theorem parts_pos : 0 < paging.parts := Nat.two_pow_pos _

theorem parts_mul : paging.parts * 2 ^ paging.log2PtePage = 2 ^ paging.log2PageSize := by
  have ordered : paging.log2PtePage ≤ paging.log2PageSize := paging.ordered
  unfold parts
  rw [← Nat.pow_add, Nat.sub_add_cancel ordered]

/-- The number of a part of a page, among the parts of all pages. -/
def partNumber (page : paging.PageNumber) (slot : Nat) : Nat :=
  page.toNat * paging.parts + slot

theorem partNumber_div (page : paging.PageNumber) {slot : Nat} (small : slot < paging.parts) :
    paging.partNumber page slot / paging.parts = page.toNat := by
  unfold partNumber
  rw [Nat.mul_comm, Nat.mul_add_div paging.parts_pos, Nat.div_eq_of_lt small, Nat.add_zero]

theorem partNumber_inj {page other : paging.PageNumber} {slot slotToo : Nat}
    (small : slot < paging.parts) (smallToo : slotToo < paging.parts)
    (same : paging.partNumber page slot = paging.partNumber other slotToo) :
    page = other ∧ slot = slotToo := by
  have samePage : page = other := by
    apply BitVec.eq_of_toNat_eq
    rw [← paging.partNumber_div page small, ← paging.partNumber_div other smallToo, same]
  rw [samePage] at same
  exact ⟨samePage, Nat.add_left_cancel same⟩

def pageBytes (page : paging.PageNumber) : Set Nat :=
  { byte | page.toNat * 2 ^ paging.log2PageSize ≤ byte ∧
    byte < (page.toNat + 1) * 2 ^ paging.log2PageSize }

def tableBytes (ppage : Address) : Set Nat :=
  { byte | ppage.toNat ≤ byte ∧ byte < ppage.toNat + paging.ptePageSize * 8 }

theorem ptePageSize_eq : paging.ptePageSize * 8 = 2 ^ paging.log2PtePage := by
  have power := paging.power
  rw [Nat.one_shiftLeft] at power
  rw [paging.ptePage_eq, Nat.pow_add]
  unfold log2Entries
  omega

theorem mem_pageBytes (page : paging.PageNumber) (byte : Nat) :
    byte ∈ paging.pageBytes page ↔ byte / 2 ^ paging.log2PageSize = page.toNat := by
  unfold pageBytes
  rw [Set.mem_ofPred_eq, Nat.div_eq_iff (Nat.two_pow_pos _)]
  have positive := Nat.two_pow_pos paging.log2PageSize
  rw [Nat.succ_mul]
  omega

theorem mem_tableBytes {ppage : Address} {part : Nat}
    (place : ppage.toNat = part * 2 ^ paging.log2PtePage) (byte : Nat) :
    byte ∈ paging.tableBytes ppage ↔ byte / 2 ^ paging.log2PtePage = part := by
  unfold tableBytes
  rw [Set.mem_ofPred_eq, Nat.div_eq_iff (Nat.two_pow_pos _), place, ptePageSize_eq]
  have positive := Nat.two_pow_pos paging.log2PtePage
  omega

theorem tableBytes_disjoint {ppage other : Address} {part partToo : Nat}
    (place : ppage.toNat = part * 2 ^ paging.log2PtePage)
    (placeToo : other.toNat = partToo * 2 ^ paging.log2PtePage) (differ : part ≠ partToo) :
    Disjoint (paging.tableBytes ppage) (paging.tableBytes other) := by
  rw [Set.disjoint_left]
  intro byte inFirst inSecond
  rw [paging.mem_tableBytes place] at inFirst
  rw [paging.mem_tableBytes placeToo] at inSecond
  exact differ (inFirst.symm.trans inSecond)

theorem pageBytes_disjoint {ppage : Address} {page holder : paging.PageNumber} {slot : Nat}
    (place : ppage.toNat = paging.partNumber holder slot * 2 ^ paging.log2PtePage)
    (small : slot < paging.parts) (differ : page ≠ holder) :
    Disjoint (paging.pageBytes page) (paging.tableBytes ppage) := by
  rw [Set.disjoint_left]
  intro byte inPage inTable
  rw [paging.mem_pageBytes] at inPage
  rw [paging.mem_tableBytes place] at inTable
  rw [← paging.parts_mul, Nat.mul_comm, ← Nat.div_div_eq_div_mul, inTable,
    paging.partNumber_div holder small] at inPage
  exact differ (BitVec.eq_of_toNat_eq inPage.symm)

theorem entryAddress_mem {ppage : Address} {part offset : Nat}
    (place : ppage.toNat = part * 2 ^ paging.log2PtePage)
    (small : offset < 2 ^ paging.log2Entries) :
    (paging.entryAddress ppage offset).toNat ∈ paging.tableBytes ppage := by
  have narrow : 3 + paging.log2Entries ≤ 64 := by
    have ordered := paging.ordered
    have pageSize := paging.pageSize
    have width := paging.ptePage_eq
    unfold log2PtePage at width
    omega
  rw [paging.ptePage_eq] at place
  unfold entryAddress tableBytes
  rw [Address.spliceBits_toNat place narrow small, Set.mem_ofPred_eq, ptePageSize_eq,
    paging.ptePage_eq, Nat.pow_add]
  omega

theorem getOffset_lt {vaddr : Address} {level : BitVec 64} {offset : Nat}
    (isOffset : paging.getOffset vaddr level = some offset) : offset < 2 ^ paging.log2Entries := by
  unfold getOffset at isOffset
  split at isOffset
  case isTrue =>
    cases isOffset
    exact Nat.mod_lt _ (Nat.two_pow_pos _)
  case isFalse => cases isOffset

theorem freshPages_nodup : paging.freshPages.Nodup := by
  unfold freshPages
  rw [(paging.permutes _).nodup_iff]
  unfold populatePages
  dsimp only
  apply List.Nodup.map_on ?_ List.nodup_range
  intro index inRange other otherInRange same
  have narrow : paging.log2PageSize ≤ 64 := by
    have small := paging.pageSize
    omega
  have count : (paging.dramSize - 2 ^ 20) / 2 ^ paging.log2PageSize ≤
      2 ^ (64 - paging.log2PageSize) := by
    have memory := paging.representable
    apply Nat.div_le_of_le_mul
    rw [← Nat.pow_add, Nat.add_sub_cancel' narrow]
    omega
  have small := (List.mem_range.mp inRange).trans_le count
  have smallToo := (List.mem_range.mp otherInRange).trans_le count
  have sameIndex := congrArg BitVec.toNat ((BitVec.add_right_inj _).mp same)
  rw [BitVec.toNat_ofNat, BitVec.toNat_ofNat, Nat.mod_eq_of_lt small,
    Nat.mod_eq_of_lt smallToo] at sameIndex
  exact sameIndex

end Paging

end ChampSim.Vmem

/-
`VirtualMemory`: the physical pages that are free, the pages that virtual pages
are mapped to, and the entries of the page tables.

Physical pages come from one list, which is filled again when it runs out. A
page table takes a physical page, or a part of one that the last page tables
left. A level whose extents are not representable throws, and is `none`.
-/

import ChampSim.Address

set_option autoImplicit false

namespace ChampSim.Vmem

/-- What the constructor accepts. `ptePageSize` counts entries of eight bytes, and `shuffle` is
the order that `shuffle_pages` gives to the pages. -/
structure Paging where
  log2PageSize : Nat
  ptePageSize : Nat
  ptLevels : Nat
  minorFaultPenalty : Nat
  dramSize : Nat
  shuffle : List (BitVec (64 - log2PageSize)) → List (BitVec (64 - log2PageSize))
  permutes : ∀ pages, (shuffle pages).Perm pages
  pageSize : log2PageSize < 32
  large : 1024 < ptePageSize * 8
  power : 1 <<< ptePageSize.log2 = ptePageSize
  ordered : (ptePageSize * 8).log2 ≤ log2PageSize
  memory : 2 ^ 20 < dramSize
  representable : dramSize < 2 ^ 63
  stocked : (dramSize - 2 ^ 20) / 2 ^ log2PageSize ≠ 0

namespace Paging

variable (paging : Paging)

/-- `page_number`. -/
abbrev PageNumber := BitVec (64 - paging.log2PageSize)

def pageAddress (page : paging.PageNumber) : Address :=
  page.setWidth 64 <<< paging.log2PageSize

def pageNumber (address : Address) : paging.PageNumber :=
  (address >>> paging.log2PageSize).setWidth _

def log2Entries : Nat := paging.ptePageSize.log2

def log2PtePage : Nat := (paging.ptePageSize * 8).log2

/-- The pages of `populate_pages`. -/
def populatePages : List paging.PageNumber :=
  let baseAddress := paging.pageNumber
    (BitVec.ofNat 64 (max (2 ^ paging.log2PageSize / 2 ^ 20) 1 * 2 ^ 20))
  (List.range ((paging.dramSize - 2 ^ 20) / 2 ^ paging.log2PageSize)).map
    (fun index => baseAddress + BitVec.ofNat _ index)

def freshPages : List paging.PageNumber := paging.shuffle paging.populatePages

theorem freshPages_length :
    paging.freshPages.length = (paging.dramSize - 2 ^ 20) / 2 ^ paging.log2PageSize := by
  unfold freshPages
  rw [(paging.permutes _).length_eq]
  unfold populatePages
  rw [List.length_map, List.length_range]

theorem freshPages_stocked : paging.freshPages ≠ [] := by
  intro nothing
  have sized := paging.freshPages_length
  rw [nothing] at sized
  exact paging.stocked sized.symm

def shamt (level : BitVec 64) : Nat :=
  (BitVec.ofNat 64 paging.log2PageSize +
    BitVec.ofNat 64 paging.log2Entries * (level - 1)).toNat

def getOffset (vaddr : Address) (level : BitVec 64) : Option Nat :=
  if paging.shamt level + paging.log2Entries ≤ 64 then
    some (vaddr.slice (paging.shamt level) paging.log2Entries)
  else none

end Paging

/-- A key of `page_table`: the slice has the extent from `lower` upwards. -/
structure PteKey where
  cpuNum : BitVec 32
  level : BitVec 32
  lower : Nat
  slice : BitVec 64
deriving DecidableEq, Repr

namespace Paging

variable (paging : Paging)

def pteKey (cpuNum : BitVec 32) (vaddr : paging.PageNumber) (level : BitVec 64) : PteKey where
  cpuNum
  level := level.setWidth 32
  lower := paging.shamt level
  slice := (paging.pageAddress vaddr).sliceUpper (paging.shamt level)

def entryAddress (ppage : Address) (offset : Nat) : Address :=
  ppage.spliceBits 3 paging.log2Entries offset

end Paging

structure VirtualMemory (paging : Paging) where
  vpageToPpageMap : BitVec 32 × paging.PageNumber → Option paging.PageNumber
  pageTable : PteKey → Option Address
  ppageFreeList : List paging.PageNumber
  activePtePage : paging.PageNumber
  nextPtePage : BitVec (paging.log2PageSize - paging.log2PtePage)
  stocked : ppageFreeList ≠ []

namespace VirtualMemory

variable {paging : Paging}

def fresh (paging : Paging) : VirtualMemory paging where
  vpageToPpageMap := fun _ => none
  pageTable := fun _ => none
  ppageFreeList := paging.freshPages
  activePtePage := 0
  nextPtePage := 0
  stocked := paging.freshPages_stocked

variable (memory : VirtualMemory paging)

def availablePpages : Nat := memory.ppageFreeList.length

def ppageFront : paging.PageNumber := memory.ppageFreeList.head memory.stocked

def ppagePop : VirtualMemory paging :=
  if empty : memory.ppageFreeList.tail = [] then
    { memory with
      ppageFreeList := paging.freshPages
      stocked := paging.freshPages_stocked }
  else
    { memory with
      ppageFreeList := memory.ppageFreeList.tail
      stocked := empty }

def vaToPa (cpuNum : BitVec 32) (vaddr : paging.PageNumber) :
    (paging.PageNumber × Nat) × VirtualMemory paging :=
  match memory.vpageToPpageMap (cpuNum, vaddr) with
  | some ppage => ((ppage, 0), memory)
  | none =>
      ((memory.ppageFront, paging.minorFaultPenalty),
        ({ memory with
          vpageToPpageMap :=
            Function.update memory.vpageToPpageMap (cpuNum, vaddr) (some memory.ppageFront)
        } : VirtualMemory paging).ppagePop)

/-- The offset of the next page-table page in the active page. -/
def nextOffset : Nat := memory.nextPtePage.toNat <<< paging.log2PtePage

/-- A page-table page is taken from the free list when the active one has none left. -/
def refreshActive : VirtualMemory paging :=
  if memory.nextOffset = 0 then
    ({ memory with activePtePage := memory.ppageFront } : VirtualMemory paging).ppagePop
  else memory

/-- The next page-table page, `splice(active_pte_page, next_pte_page)`. -/
def nextTable : Address :=
  (paging.pageAddress memory.activePtePage).splice (BitVec.ofNat 64 memory.nextOffset)
    paging.log2PageSize

/-- The address of the entry of a virtual page, and the penalty. -/
def getPtePa (cpuNum : BitVec 32) (vaddr : paging.PageNumber) (level : BitVec 64) :
    Option ((Address × Nat) × VirtualMemory paging) := do
  let active := memory.refreshActive
  let offset ← paging.getOffset (paging.pageAddress vaddr) level
  match active.pageTable (paging.pteKey cpuNum vaddr level) with
  | some ppage => return ((paging.entryAddress ppage offset, 0), active)
  | none =>
      let ppage := active.nextTable
      some ((paging.entryAddress ppage offset, paging.minorFaultPenalty),
        { active with
          pageTable :=
            Function.update active.pageTable (paging.pteKey cpuNum vaddr level) (some ppage)
          nextPtePage := active.nextPtePage + 1 })

end VirtualMemory

end ChampSim.Vmem

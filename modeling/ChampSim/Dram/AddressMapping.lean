/-
`DRAM_ADDRESS_MAPPING`: how an address is cut into the coordinates of a DRAM
cell, with the extents and the dynamic slices that it is made of.

A slice carries its extent and a value that fits it. A loop of the source that
need not end takes fuel, and `none` is a loop that is still running.
-/

import ChampSim.Address
import Mathlib.Data.Nat.Log

set_option autoImplicit false

namespace ChampSim.Dram

/-! ### Extents and slices -/

/-- `dynamic_extent`, with the assertion of its constructor. -/
structure DynamicExtent where
  upper : Nat
  lower : Nat
  ordered : lower ≤ upper
deriving DecidableEq, Repr

namespace DynamicExtent

def size (extent : DynamicExtent) : Nat := extent.upper - extent.lower

/-- `dynamic_extent{low, size}`. -/
def ofSize (low size : Nat) : DynamicExtent := ⟨low + size, low, Nat.le_add_right low size⟩

@[simp] theorem ofSize_size (low size : Nat) : (ofSize low size).size = size :=
  Nat.add_sub_cancel_left low size

@[simp] theorem ofSize_upper (low size : Nat) : (ofSize low size).upper = low + size := rfl

@[simp] theorem ofSize_lower (low size : Nat) : (ofSize low size).lower = low := rfl

/-- `relative_extent`. -/
def relative (superextent subextent : DynamicExtent) : DynamicExtent where
  upper := superextent.lower + min subextent.upper superextent.size
  lower := superextent.lower + min subextent.lower superextent.size
  ordered := Nat.add_le_add_left (min_le_min_right _ subextent.ordered) _

end DynamicExtent

/-- The `std::invalid_argument` of a slice constructor: "Upper bound is not representable in the
underlying type". -/
inductive SliceError where
  | upperBound
deriving DecidableEq, Repr

/-- `address_slice<dynamic_extent>`. -/
structure AddressSlice where
  extent : DynamicExtent
  value : Nat
  representable : extent.upper ≤ 64
  fits : value < 2 ^ extent.size
deriving DecidableEq, Repr

namespace AddressSlice

def ofAddress (address : Address) : AddressSlice where
  extent := ⟨64, 0, Nat.zero_le 64⟩
  value := address.toNat
  representable := Nat.le_refl 64
  fits := address.isLt

/-- `address_slice{ext, val}`. -/
def ofSlice (extent : DynamicExtent) (val : AddressSlice) : Except SliceError AddressSlice :=
  if representable : extent.upper ≤ 64 then
    .ok
      { extent
        value := (val.value <<< val.extent.lower >>> extent.lower) % 2 ^ extent.size
        representable
        fits := Nat.mod_lt _ (Nat.two_pow_pos _) }
  else .error .upperBound

def slice (val : AddressSlice) (subextent : DynamicExtent) : Except SliceError AddressSlice :=
  ofSlice (DynamicExtent.relative val.extent subextent) val

end AddressSlice

/-! ### The slicer -/

/-- The widths of the seven contiguous extents of an address. -/
structure Slicer where
  offsetBits : Nat
  channelBits : Nat
  bankgroupBits : Nat
  bankBits : Nat
  columnBits : Nat
  rankBits : Nat
  rowBits : Nat
deriving DecidableEq, Repr

namespace Slicer

variable (slicer : Slicer)

def offset : DynamicExtent := .ofSize 0 slicer.offsetBits
def channel : DynamicExtent := .ofSize slicer.offset.upper slicer.channelBits
def bankgroup : DynamicExtent := .ofSize slicer.channel.upper slicer.bankgroupBits
def bank : DynamicExtent := .ofSize slicer.bankgroup.upper slicer.bankBits
def column : DynamicExtent := .ofSize slicer.bank.upper slicer.columnBits
def rank : DynamicExtent := .ofSize slicer.column.upper slicer.rankBits
def row : DynamicExtent := .ofSize slicer.rank.upper slicer.rowBits

/-- `bit_size`. -/
def bitSize : Nat :=
  slicer.offset.size + slicer.channel.size + slicer.bankgroup.size + slicer.bank.size +
    slicer.column.size + slicer.rank.size + slicer.row.size

structure Slices where
  offset : AddressSlice
  channel : AddressSlice
  bankgroup : AddressSlice
  bank : AddressSlice
  column : AddressSlice
  rank : AddressSlice
  row : AddressSlice
deriving DecidableEq, Repr

/-- `operator()`. -/
def apply (address : Address) : Except SliceError Slices := do
  let offset ← AddressSlice.ofSlice slicer.offset (.ofAddress address)
  let channel ← AddressSlice.ofSlice slicer.channel (.ofAddress address)
  let bankgroup ← AddressSlice.ofSlice slicer.bankgroup (.ofAddress address)
  let bank ← AddressSlice.ofSlice slicer.bank (.ofAddress address)
  let column ← AddressSlice.ofSlice slicer.column (.ofAddress address)
  let rank ← AddressSlice.ofSlice slicer.rank (.ofAddress address)
  let row ← AddressSlice.ofSlice slicer.row (.ofAddress address)
  return { offset, channel, bankgroup, bank, column, rank, row }

end Slicer

/-! ### The mapping -/

structure AddressMapping where
  addressSlicer : Slicer
  prefetchSize : Nat
deriving DecidableEq, Repr

/-- The parameters of a mapping, as they are configured. -/
structure Geometry where
  channelWidth : Nat
  prefSize : Nat
  channels : Nat
  bankgroups : Nat
  banks : Nat
  columns : Nat
  ranks : Nat
  rows : Nat
deriving DecidableEq, Repr

/-- `make_slicer`. -/
def makeSlicer (geometry : Geometry) : Slicer where
  offsetBits := Nat.log2 (geometry.channelWidth * geometry.prefSize)
  channelBits := Nat.log2 geometry.channels
  bankgroupBits := Nat.log2 geometry.bankgroups
  bankBits := Nat.log2 geometry.banks
  columnBits := Nat.log2 (geometry.columns / geometry.prefSize)
  rankBits := Nat.log2 geometry.ranks
  rowBits := Nat.log2 geometry.rows

namespace AddressMapping

section Counts

variable (mapping : AddressMapping)

def rows : Nat := 1 <<< mapping.addressSlicer.row.size
def columns : Nat := mapping.prefetchSize <<< mapping.addressSlicer.column.size
def ranks : Nat := 1 <<< mapping.addressSlicer.rank.size
def bankgroups : Nat := 1 <<< mapping.addressSlicer.bankgroup.size
def banks : Nat := 1 <<< mapping.addressSlicer.bank.size
def channels : Nat := 1 <<< mapping.addressSlicer.channel.size

end Counts

/-- The constructor, or `none` when one of its assertions fails. -/
def make (blockSize : Nat) (geometry : Geometry) : Option AddressMapping :=
  let mapping : AddressMapping := ⟨makeSlicer geometry, geometry.prefSize⟩
  if mapping.prefetchSize ≠ 0 ∧ geometry.channelWidth * mapping.prefetchSize % blockSize = 0 ∧
      (1 ≤ mapping.columns ∧ mapping.columns = geometry.columns) ∧
      (1 ≤ mapping.rows ∧ mapping.rows = geometry.rows) ∧
      (1 ≤ mapping.banks ∧ mapping.banks = geometry.banks) ∧
      (1 ≤ mapping.bankgroups ∧ mapping.bankgroups = geometry.bankgroups) ∧
      (1 ≤ mapping.ranks ∧ mapping.ranks = geometry.ranks) ∧
      1 ≤ mapping.channels ∧ mapping.channels = geometry.channels
  then some mapping
  else none

/-- The loop of `swizzle_bits`. -/
def swizzleLoop (row : AddressSlice) (segmentSize segmentOffset fieldBits : Nat) :
    Nat → DynamicExtent → Nat → Option (Except SliceError Nat)
  | 0, _, _ => none
  | fuel + 1, subextent, permuteField =>
      if subextent.upper ≤ row.extent.upper then
        match (row.slice subextent).bind (fun segment =>
            segment.slice (.ofSize segmentOffset fieldBits)) with
        | .error thrown => some (.error thrown)
        | .ok bits =>
            swizzleLoop row segmentSize segmentOffset fieldBits fuel
              (.ofSize subextent.upper segmentSize) (permuteField ^^^ bits.value)
      else some (.ok permuteField)

variable (mapping : AddressMapping)

def swizzleBits (fuel : Nat) (address : Address)
    (segmentSize segmentOffset field fieldBits : Nat) : Option (Except SliceError Nat) :=
  match AddressSlice.ofSlice mapping.addressSlicer.row (.ofAddress address) with
  | .error thrown => some (.error thrown)
  | .ok row =>
      swizzleLoop row segmentSize segmentOffset fieldBits fuel (.ofSize 0 segmentSize) field

def getChannel (fuel : Nat) (address : Address) : Option (Except SliceError Nat) :=
  match mapping.addressSlicer.apply address with
  | .error thrown => some (.error thrown)
  | .ok slices =>
      mapping.swizzleBits fuel address 1 0 slices.channel.value mapping.addressSlicer.channel.size

def getRank (address : Address) : Except SliceError Nat :=
  (mapping.addressSlicer.apply address).map (fun slices => slices.rank.value)

def getBankgroup (fuel : Nat) (address : Address) : Option (Except SliceError Nat) :=
  match mapping.addressSlicer.apply address with
  | .error thrown => some (.error thrown)
  | .ok slices =>
      let bgBits := mapping.addressSlicer.bankgroup.size
      let bkBits := mapping.addressSlicer.bank.size
      mapping.swizzleBits fuel address (bgBits + bkBits) 0 slices.bankgroup.value bgBits

def getBank (fuel : Nat) (address : Address) : Option (Except SliceError Nat) :=
  match mapping.addressSlicer.apply address with
  | .error thrown => some (.error thrown)
  | .ok slices =>
      let bgBits := mapping.addressSlicer.bankgroup.size
      let bkBits := mapping.addressSlicer.bank.size
      mapping.swizzleBits fuel address (bgBits + bkBits) bgBits slices.bank.value bkBits

def getRow (address : Address) : Except SliceError Nat :=
  (mapping.addressSlicer.apply address).map (fun slices => slices.row.value)

def getColumn (address : Address) : Except SliceError Nat :=
  (mapping.addressSlicer.apply address).map (fun slices => slices.column.value)

def getOffset (address : Address) : Except SliceError Nat :=
  (mapping.addressSlicer.apply address).map (fun slices => slices.offset.value)

/-- `is_collision`. -/
def isCollision (a b : Address) : Bool :=
  let offsetBits := mapping.addressSlicer.offset.size
  decide (a.sliceUpper offsetBits = b.sliceUpper offsetBits)

/-- `MEMORY_CONTROLLER::size()`, a signed word: `none` where the shift is not defined. -/
def memorySize : Option Int :=
  if mapping.addressSlicer.bitSize < 64 then
    some (1#64 <<< mapping.addressSlicer.bitSize).toInt
  else none

end AddressMapping

end ChampSim.Dram

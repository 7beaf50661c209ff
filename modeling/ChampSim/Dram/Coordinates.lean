/-
The coordinates of an address: the values that the seven accessors of the
mapping give it, and when they give any.

Three of the fields are xored with masks of the row. The masks fit the fields
and depend on the row only, so the mapping permutes the cells of each row.
-/

import ChampSim.Dram.Swizzle
import ChampSim.Library.BitFields

set_option autoImplicit false

namespace ChampSim.Dram

@[ext] structure Coordinates where
  offset : Nat
  channel : Nat
  bankgroup : Nat
  bank : Nat
  column : Nat
  rank : Nat
  row : Nat
deriving DecidableEq, Repr

/-! ### The slices of an address -/

namespace AddressSlice

theorem ofSlice_ok (extent : DynamicExtent) (representable : extent.upper ≤ 64)
    (address : Address) :
    ∃ part : AddressSlice, ofSlice extent (ofAddress address) = .ok part ∧
      part.extent = extent ∧ part.value = address.toNat / 2 ^ extent.lower % 2 ^ extent.size := by
  refine ⟨_, dif_pos representable, rfl, ?_⟩
  change (address.toNat <<< 0 >>> extent.lower) % _ = _
  rw [Nat.shiftLeft_zero, Nat.shiftRight_eq_div_pow]

end AddressSlice

namespace Slicer

variable (slicer : Slicer)

def widths : List Nat :=
  [slicer.offset.size, slicer.channel.size, slicer.bankgroup.size, slicer.bank.size,
    slicer.column.size, slicer.rank.size, slicer.row.size]

/-- What the slices of an address hold, before any field is swizzled. -/
def raw (address : Address) : Coordinates where
  offset := address.toNat / 2 ^ slicer.offset.lower % 2 ^ slicer.offset.size
  channel := address.toNat / 2 ^ slicer.channel.lower % 2 ^ slicer.channel.size
  bankgroup := address.toNat / 2 ^ slicer.bankgroup.lower % 2 ^ slicer.bankgroup.size
  bank := address.toNat / 2 ^ slicer.bank.lower % 2 ^ slicer.bank.size
  column := address.toNat / 2 ^ slicer.column.lower % 2 ^ slicer.column.size
  rank := address.toNat / 2 ^ slicer.rank.lower % 2 ^ slicer.rank.size
  row := address.toNat / 2 ^ slicer.row.lower % 2 ^ slicer.row.size

theorem row_upper : slicer.row.upper = slicer.bitSize := by
  simp [row, rank, column, bank, bankgroup, channel, offset, bitSize]

theorem widths_sum : slicer.widths.sum = slicer.bitSize := by
  simp [widths, row, rank, column, bank, bankgroup, channel, offset, bitSize]
  omega

theorem apply_ok (narrow : slicer.bitSize ≤ 64) (address : Address) :
    ∃ slices : Slices, slicer.apply address = .ok slices ∧
      slices.row.extent = slicer.row ∧
      (⟨slices.offset.value, slices.channel.value, slices.bankgroup.value, slices.bank.value,
        slices.column.value, slices.rank.value, slices.row.value⟩ : Coordinates) =
        slicer.raw address := by
  have rowFits : slicer.row.upper ≤ 64 := slicer.row_upper.trans_le narrow
  have rankFits : slicer.rank.upper ≤ 64 := (Nat.le_add_right _ _).trans rowFits
  have columnFits : slicer.column.upper ≤ 64 := (Nat.le_add_right _ _).trans rankFits
  have bankFits : slicer.bank.upper ≤ 64 := (Nat.le_add_right _ _).trans columnFits
  have bankgroupFits : slicer.bankgroup.upper ≤ 64 := (Nat.le_add_right _ _).trans bankFits
  have channelFits : slicer.channel.upper ≤ 64 := (Nat.le_add_right _ _).trans bankgroupFits
  have offsetFits : slicer.offset.upper ≤ 64 := (Nat.le_add_right _ _).trans channelFits
  obtain ⟨offset, isOffset, _, offsetValue⟩ := AddressSlice.ofSlice_ok _ offsetFits address
  obtain ⟨channel, isChannel, _, channelValue⟩ := AddressSlice.ofSlice_ok _ channelFits address
  obtain ⟨bankgroup, isBankgroup, _, bankgroupValue⟩ :=
    AddressSlice.ofSlice_ok _ bankgroupFits address
  obtain ⟨bank, isBank, _, bankValue⟩ := AddressSlice.ofSlice_ok _ bankFits address
  obtain ⟨column, isColumn, _, columnValue⟩ := AddressSlice.ofSlice_ok _ columnFits address
  obtain ⟨rank, isRank, _, rankValue⟩ := AddressSlice.ofSlice_ok _ rankFits address
  obtain ⟨row, isRow, rowExtent, rowValue⟩ := AddressSlice.ofSlice_ok _ rowFits address
  refine ⟨⟨offset, channel, bankgroup, bank, column, rank, row⟩, ?_, rowExtent, ?_⟩
  · unfold apply
    rw [isOffset, isChannel, isBankgroup, isBank, isColumn, isRank, isRow]
    rfl
  · rw [offsetValue, channelValue, bankgroupValue, bankValue, columnValue, rankValue, rowValue]
    rfl

private theorem bind_throws {One Other : Type} (first : Except SliceError One)
    (next : One → Except SliceError Other)
    (throws : ∀ value, next value = .error .upperBound) :
    first.bind next = .error .upperBound := by
  cases first with
  | error thrown =>
      cases thrown
      rfl
  | ok value => exact throws value

theorem apply_throws (wide : 64 < slicer.bitSize) (address : Address) :
    slicer.apply address = .error .upperBound := by
  have rowThrows : AddressSlice.ofSlice slicer.row (.ofAddress address) =
      .error .upperBound := by
    apply dif_neg
    rw [slicer.row_upper]
    omega
  refine bind_throws _ _ fun offset => bind_throws _ _ fun channel => bind_throws _ _
    fun bankgroup => bind_throws _ _ fun bank => bind_throws _ _ fun column =>
      bind_throws _ _ fun rank => ?_
  rw [rowThrows]
  rfl

theorem split_raw (address : Address) :
    BitFields.split slicer.widths address.toNat =
      [(slicer.raw address).offset, (slicer.raw address).channel,
        (slicer.raw address).bankgroup, (slicer.raw address).bank, (slicer.raw address).column,
        (slicer.raw address).rank, (slicer.raw address).row] := by
  simp [widths, BitFields.split, raw, row, rank, column, bank, bankgroup, channel, offset,
    Nat.div_div_eq_div_mul, ← Nat.pow_add]

end Slicer

/-! ### Masks -/

namespace AddressMapping

variable (mapping : AddressMapping)

def rowMask (row : AddressSlice) (segmentSize segmentOffset fieldBits : Nat) : Nat :=
  match swizzleLoop row segmentSize segmentOffset fieldBits (row.extent.upper + 1)
      (.ofSize 0 segmentSize) 0 with
  | some (.ok mask) => mask
  | _ => 0

theorem rowMask_spec (row : AddressSlice) (segmentSize segmentOffset fieldBits : Nat)
    (positive : 0 < segmentSize) :
    rowMask row segmentSize segmentOffset fieldBits < 2 ^ fieldBits ∧
      ∀ field, swizzleLoop row segmentSize segmentOffset fieldBits (row.extent.upper + 1)
        (.ofSize 0 segmentSize) field =
          some (.ok (field ^^^ rowMask row segmentSize segmentOffset fieldBits)) := by
  obtain ⟨mask, ran, small⟩ := swizzleLoop_returns row segmentSize segmentOffset fieldBits
    positive (row.extent.upper + 1) 0 0 (by omega) (Nat.two_pow_pos _)
  have isMask : rowMask row segmentSize segmentOffset fieldBits = mask := by
    unfold rowMask
    rw [ran]
  rw [isMask]
  refine ⟨small, ?_⟩
  intro field
  have permuted := swizzleLoop_permute row _ _ _ _ _ mask 0 ran field
  rw [Nat.xor_zero] at permuted
  exact permuted

end AddressMapping

namespace AddressMapping

def rowSlice (mapping : AddressMapping) (narrow : mapping.addressSlicer.bitSize ≤ 64) (row : Nat)
    (fits : row < 2 ^ mapping.addressSlicer.row.size) : AddressSlice where
  extent := mapping.addressSlicer.row
  value := row
  representable := mapping.addressSlicer.row_upper.trans_le narrow
  fits := fits

theorem raw_row_fits (slicer : Slicer) (address : Address) :
    (slicer.raw address).row < 2 ^ slicer.row.size :=
  Nat.mod_lt _ (Nat.two_pow_pos _)

section Narrow

variable (mapping : AddressMapping) (narrow : mapping.addressSlicer.bitSize ≤ 64)

def segmentBits : Nat :=
  mapping.addressSlicer.bankgroup.size + mapping.addressSlicer.bank.size

/-- A row's masks, and the coordinates with the masks xored to them. -/
def masked (row : Nat) (fits : row < 2 ^ mapping.addressSlicer.row.size)
    (coordinates : Coordinates) : Coordinates :=
  let slice := mapping.rowSlice narrow row fits
  let bgBits := mapping.addressSlicer.bankgroup.size
  let bkBits := mapping.addressSlicer.bank.size
  { coordinates with
    channel := coordinates.channel ^^^ rowMask slice 1 0 mapping.addressSlicer.channel.size
    bankgroup := coordinates.bankgroup ^^^ rowMask slice (bgBits + bkBits) 0 bgBits
    bank := coordinates.bank ^^^ rowMask slice (bgBits + bkBits) bgBits bkBits }

theorem masked_masked (row : Nat) (fits : row < 2 ^ mapping.addressSlicer.row.size)
    (coordinates : Coordinates) :
    mapping.masked narrow row fits (mapping.masked narrow row fits coordinates) = coordinates := by
  have twice : ∀ field mask : Nat, field ^^^ mask ^^^ mask = field := by
    intro field mask
    rw [Nat.xor_assoc, Nat.xor_self, Nat.xor_zero]
  simp only [masked, twice]

theorem swizzleBits_eq (fuel : Nat) (address : Address)
    (segmentSize segmentOffset field fieldBits : Nat) :
    mapping.swizzleBits fuel address segmentSize segmentOffset field fieldBits =
      swizzleLoop (mapping.rowSlice narrow (mapping.addressSlicer.raw address).row
        (raw_row_fits _ address)) segmentSize segmentOffset fieldBits fuel
        (.ofSize 0 segmentSize) field := by
  have rowFits : mapping.addressSlicer.row.upper ≤ 64 :=
    mapping.addressSlicer.row_upper.trans_le narrow
  obtain ⟨row, isRow, extent, value⟩ := AddressSlice.ofSlice_ok _ rowFits address
  have same : row = mapping.rowSlice narrow (mapping.addressSlicer.raw address).row
      (raw_row_fits _ address) := by
    cases row
    cases extent
    cases value
    rfl
  unfold swizzleBits
  rw [isRow, same]

include narrow in
theorem swizzleBits_mono (fuel more : Nat) (address : Address)
    (segmentSize segmentOffset field fieldBits : Nat) (result : Except SliceError Nat)
    (ran : mapping.swizzleBits fuel address segmentSize segmentOffset field fieldBits =
      some result) :
    mapping.swizzleBits (fuel + more) address segmentSize segmentOffset field fieldBits =
      some result := by
  rw [mapping.swizzleBits_eq narrow] at ran ⊢
  exact swizzleLoop_mono _ _ _ _ _ _ _ _ _ ran

def Returns {Value : Type} (accessor : Nat → Option (Except SliceError Value)) (value : Value) :
    Prop :=
  ∃ fuel, accessor fuel = some (.ok value)

structure Decodes (address : Address) (coordinates : Coordinates) : Prop where
  offset : mapping.getOffset address = .ok coordinates.offset
  channel : Returns (fun fuel => mapping.getChannel fuel address) coordinates.channel
  bankgroup : Returns (fun fuel => mapping.getBankgroup fuel address) coordinates.bankgroup
  bank : Returns (fun fuel => mapping.getBank fuel address) coordinates.bank
  column : mapping.getColumn address = .ok coordinates.column
  rank : mapping.getRank address = .ok coordinates.rank
  row : mapping.getRow address = .ok coordinates.row

include narrow in
theorem swizzle_returns_iff (address : Address)
    (segmentSize segmentOffset field fieldBits value : Nat) (positive : 0 < segmentSize) :
    Returns (fun fuel =>
        mapping.swizzleBits fuel address segmentSize segmentOffset field fieldBits) value ↔
      value = field ^^^ rowMask (mapping.rowSlice narrow (mapping.addressSlicer.raw address).row
        (raw_row_fits _ address)) segmentSize segmentOffset fieldBits := by
  have ends := (rowMask_spec (mapping.rowSlice narrow (mapping.addressSlicer.raw address).row
    (raw_row_fits _ address)) segmentSize segmentOffset fieldBits positive).2 field
  rw [← mapping.swizzleBits_eq narrow] at ends
  constructor
  · rintro ⟨fuel, ran⟩
    have longer := mapping.swizzleBits_mono narrow fuel
      (mapping.addressSlicer.row.upper + 1) address _ _ _ _ _ ran
    have longerToo := mapping.swizzleBits_mono narrow _ fuel address _ _ _ _ _ ends
    rw [Nat.add_comm] at longer
    exact Except.ok.inj (Option.some.inj (longer.symm.trans longerToo))
  · intro same
    rw [same]
    exact ⟨_, ends⟩

include narrow in
theorem accessors_eq (address : Address) :
    (∀ fuel, mapping.getChannel fuel address = mapping.swizzleBits fuel address 1 0
      (mapping.addressSlicer.raw address).channel mapping.addressSlicer.channel.size) ∧
    (∀ fuel, mapping.getBankgroup fuel address =
      mapping.swizzleBits fuel address mapping.segmentBits 0
        (mapping.addressSlicer.raw address).bankgroup mapping.addressSlicer.bankgroup.size) ∧
    (∀ fuel, mapping.getBank fuel address = mapping.swizzleBits fuel address mapping.segmentBits
      mapping.addressSlicer.bankgroup.size (mapping.addressSlicer.raw address).bank
      mapping.addressSlicer.bank.size) ∧
    mapping.getOffset address = .ok (mapping.addressSlicer.raw address).offset ∧
    mapping.getColumn address = .ok (mapping.addressSlicer.raw address).column ∧
    mapping.getRank address = .ok (mapping.addressSlicer.raw address).rank ∧
    mapping.getRow address = .ok (mapping.addressSlicer.raw address).row := by
  obtain ⟨slices, applied, _extent, values⟩ := mapping.addressSlicer.apply_ok narrow address
  rw [← values]
  unfold getChannel getBankgroup getBank getOffset getColumn getRank getRow
  rw [applied]
  exact ⟨fun _fuel => rfl, fun _fuel => rfl, fun _fuel => rfl, rfl, rfl, rfl, rfl⟩

/-- With more than one bank, the accessors return the masked raw coordinates. -/
theorem decodes_iff (several : 0 < mapping.segmentBits) (address : Address)
    (coordinates : Coordinates) :
    mapping.Decodes address coordinates ↔
      coordinates = mapping.masked narrow (mapping.addressSlicer.raw address).row
        (raw_row_fits _ address) (mapping.addressSlicer.raw address) := by
  obtain ⟨isChannel, isBankgroup, isBank, isOffset, isColumn, isRank, isRow⟩ :=
    mapping.accessors_eq narrow address
  have channel := mapping.swizzle_returns_iff narrow address 1 0
    (mapping.addressSlicer.raw address).channel mapping.addressSlicer.channel.size
    coordinates.channel Nat.one_pos
  have bankgroup := mapping.swizzle_returns_iff narrow address _ 0
    (mapping.addressSlicer.raw address).bankgroup mapping.addressSlicer.bankgroup.size
    coordinates.bankgroup several
  have bank := mapping.swizzle_returns_iff narrow address _ mapping.addressSlicer.bankgroup.size
    (mapping.addressSlicer.raw address).bank mapping.addressSlicer.bank.size
    coordinates.bank several
  simp only [← isChannel] at channel
  simp only [← isBankgroup] at bankgroup
  simp only [← isBank] at bank
  constructor
  · intro decodes
    apply Coordinates.ext
    · exact Except.ok.inj (decodes.offset.symm.trans isOffset)
    · exact channel.mp decodes.channel
    · exact bankgroup.mp decodes.bankgroup
    · exact bank.mp decodes.bank
    · exact Except.ok.inj (decodes.column.symm.trans isColumn)
    · exact Except.ok.inj (decodes.rank.symm.trans isRank)
    · exact Except.ok.inj (decodes.row.symm.trans isRow)
  · intro same
    subst same
    exact ⟨isOffset, channel.mpr rfl, bankgroup.mpr rfl, bank.mpr rfl, isColumn, isRank, isRow⟩

end Narrow

end AddressMapping

end ChampSim.Dram

/-
The addresses of a memory and the coordinates of its cells are in bijection.

This needs more than one bank: with a single bank the segments of the bank
swizzles have no width and their loops never end.
-/

import ChampSim.Dram.Coordinates

set_option autoImplicit false

namespace ChampSim.Dram

namespace Coordinates

def fields (coordinates : Coordinates) : List Nat :=
  [coordinates.offset, coordinates.channel, coordinates.bankgroup, coordinates.bank,
    coordinates.column, coordinates.rank, coordinates.row]

def withoutOffset (coordinates : Coordinates) : Coordinates := { coordinates with offset := 0 }

theorem fields_withoutOffset (coordinates : Coordinates) :
    coordinates.withoutOffset.fields = 0 :: coordinates.fields.tail := rfl

theorem fields_injective (one other : Coordinates) (same : one.fields = other.fields) :
    one = other := by
  cases one
  cases other
  simpa [fields] using same

end Coordinates

namespace Slicer

variable (slicer : Slicer)

def compose (coordinates : Coordinates) : Address :=
  BitVec.ofNat 64 (BitFields.join slicer.widths coordinates.fields)

variable (narrow : slicer.bitSize ≤ 64)

include narrow in
theorem compose_toNat (coordinates : Coordinates)
    (fits : BitFields.Fits slicer.widths coordinates.fields) :
    (slicer.compose coordinates).toNat = BitFields.join slicer.widths coordinates.fields := by
  have small := BitFields.join_lt fits
  rw [slicer.widths_sum] at small
  exact Nat.mod_eq_of_lt (small.trans_le (Nat.pow_le_pow_right Nat.two_pos narrow))

include narrow in
theorem compose_lt (coordinates : Coordinates)
    (fits : BitFields.Fits slicer.widths coordinates.fields) :
    (slicer.compose coordinates).toNat < 2 ^ slicer.bitSize := by
  rw [slicer.compose_toNat narrow coordinates fits, ← slicer.widths_sum]
  exact BitFields.join_lt fits

include narrow in
theorem raw_compose (coordinates : Coordinates)
    (fits : BitFields.Fits slicer.widths coordinates.fields) :
    slicer.raw (slicer.compose coordinates) = coordinates := by
  apply Coordinates.fields_injective
  have cut := slicer.split_raw (slicer.compose coordinates)
  rw [slicer.compose_toNat narrow coordinates fits, BitFields.split_join fits] at cut
  exact cut.symm

theorem compose_raw (address : Address) (inside : address.toNat < 2 ^ slicer.bitSize) :
    slicer.compose (slicer.raw address) = address := by
  rw [← slicer.widths_sum] at inside
  have joined := BitFields.join_split slicer.widths address.toNat inside
  have cut : BitFields.split slicer.widths address.toNat = (slicer.raw address).fields :=
    slicer.split_raw address
  rw [cut] at joined
  unfold compose
  rw [joined, BitVec.ofNat_toNat, BitVec.setWidth_eq]

theorem raw_fits (address : Address) :
    BitFields.Fits slicer.widths (slicer.raw address).fields := by
  have fits := BitFields.split_fits slicer.widths address.toNat
  rw [slicer.split_raw] at fits
  exact fits

/-- Above the offset, two addresses agree when their raw coordinates do. -/
theorem upper_eq_iff (a b : Address) (insideA : a.toNat < 2 ^ slicer.bitSize)
    (insideB : b.toNat < 2 ^ slicer.bitSize) :
    a.sliceUpper slicer.offset.size = b.sliceUpper slicer.offset.size ↔
      (slicer.raw a).withoutOffset = (slicer.raw b).withoutOffset := by
  have upper : ∀ address : Address, (address.sliceUpper slicer.offset.size).toNat =
      address.toNat / 2 ^ slicer.offset.size := by
    intro address
    unfold Address.sliceUpper
    rw [BitVec.toNat_ushiftRight, Nat.shiftRight_eq_div_pow]
  have cut : ∀ address : Address, BitFields.split slicer.widths.tail
      (address.toNat / 2 ^ slicer.offset.size) = (slicer.raw address).fields.tail := by
    intro address
    have whole := congrArg List.tail (slicer.split_raw address)
    exact whole
  have join : ∀ address : Address, address.toNat < 2 ^ slicer.bitSize →
      BitFields.join slicer.widths.tail (slicer.raw address).fields.tail =
        address.toNat / 2 ^ slicer.offset.size := by
    intro address inside
    rw [← cut]
    apply BitFields.join_split
    rw [← slicer.widths_sum] at inside
    apply Nat.div_lt_of_lt_mul
    rw [← Nat.pow_add]
    exact inside
  constructor
  · intro same
    have numbers := congrArg BitVec.toNat same
    rw [upper, upper] at numbers
    have tails := cut a
    rw [numbers, cut b] at tails
    apply Coordinates.fields_injective
    rw [Coordinates.fields_withoutOffset, Coordinates.fields_withoutOffset, tails]
  · intro same
    have lists := congrArg (fun coordinates => (Coordinates.fields coordinates).tail) same
    have tails : (slicer.raw a).fields.tail = (slicer.raw b).fields.tail := lists
    apply BitVec.eq_of_toNat_eq
    rw [upper, upper, ← join a insideA, ← join b insideB, tails]

end Slicer

namespace AddressMapping

variable (mapping : AddressMapping)

structure InRange (coordinates : Coordinates) : Prop where
  offset : coordinates.offset < 2 ^ mapping.addressSlicer.offset.size
  channel : coordinates.channel < mapping.channels
  bankgroup : coordinates.bankgroup < mapping.bankgroups
  bank : coordinates.bank < mapping.banks
  column : coordinates.column < mapping.columns / mapping.prefetchSize
  rank : coordinates.rank < mapping.ranks
  row : coordinates.row < mapping.rows

theorem inRange_iff (positive : 0 < mapping.prefetchSize) (coordinates : Coordinates) :
    mapping.InRange coordinates ↔
      BitFields.Fits mapping.addressSlicer.widths coordinates.fields := by
  have columns : mapping.columns / mapping.prefetchSize =
      2 ^ mapping.addressSlicer.column.size := by
    unfold AddressMapping.columns
    rw [Nat.shiftLeft_eq, Nat.mul_div_cancel_left _ positive]
  unfold BitFields.Fits Slicer.widths Coordinates.fields
  simp only [List.forall₂_cons, List.Forall₂.nil, and_true]
  constructor
  · intro inRange
    refine ⟨inRange.offset, ?_, ?_, ?_, ?_, ?_, ?_⟩
    · exact inRange.channel.trans_eq (Nat.one_shiftLeft _)
    · exact inRange.bankgroup.trans_eq (Nat.one_shiftLeft _)
    · exact inRange.bank.trans_eq (Nat.one_shiftLeft _)
    · exact inRange.column.trans_eq columns
    · exact inRange.rank.trans_eq (Nat.one_shiftLeft _)
    · exact inRange.row.trans_eq (Nat.one_shiftLeft _)
  · rintro ⟨offset, channel, bankgroup, bank, column, rank, row⟩
    exact ⟨offset, channel.trans_eq (Nat.one_shiftLeft _).symm,
      bankgroup.trans_eq (Nat.one_shiftLeft _).symm, bank.trans_eq (Nat.one_shiftLeft _).symm,
      column.trans_eq columns.symm, rank.trans_eq (Nat.one_shiftLeft _).symm,
      row.trans_eq (Nat.one_shiftLeft _).symm⟩

section Narrow

variable (narrow : mapping.addressSlicer.bitSize ≤ 64)

theorem masked_fits (several : 0 < mapping.segmentBits) (row : Nat)
    (fits : row < 2 ^ mapping.addressSlicer.row.size) (coordinates : Coordinates)
    (inside : BitFields.Fits mapping.addressSlicer.widths coordinates.fields) :
    BitFields.Fits mapping.addressSlicer.widths
      (mapping.masked narrow row fits coordinates).fields := by
  unfold BitFields.Fits Slicer.widths Coordinates.fields at inside ⊢
  simp only [List.forall₂_cons, List.Forall₂.nil, and_true] at inside ⊢
  obtain ⟨offset, channel, bankgroup, bank, column, rank, isRow⟩ := inside
  refine ⟨offset, ?_, ?_, ?_, column, rank, isRow⟩
  · exact Nat.xor_lt_two_pow channel (rowMask_spec _ _ _ _ Nat.one_pos).1
  · exact Nat.xor_lt_two_pow bankgroup (rowMask_spec _ _ _ _ several).1
  · exact Nat.xor_lt_two_pow bank (rowMask_spec _ _ _ _ several).1

theorem masked_congr (row other : Nat) (same : row = other)
    (fits : row < 2 ^ mapping.addressSlicer.row.size)
    (fitsToo : other < 2 ^ mapping.addressSlicer.row.size) (coordinates : Coordinates) :
    mapping.masked narrow row fits coordinates = mapping.masked narrow other fitsToo coordinates := by
  subst same
  rfl

/-- Decoded coordinates give the raw ones back, and with them the address. -/
theorem raw_of_decodes (several : 0 < mapping.segmentBits) (address : Address)
    (coordinates : Coordinates) (fits : coordinates.row < 2 ^ mapping.addressSlicer.row.size)
    (decodes : mapping.Decodes address coordinates) :
    mapping.addressSlicer.raw address = mapping.masked narrow coordinates.row fits coordinates := by
  have same := (mapping.decodes_iff narrow several address coordinates).mp decodes
  subst same
  exact (mapping.masked_masked narrow _ _ _).symm

include narrow in
theorem decodes_injective (several : 0 < mapping.segmentBits) (a b : Address)
    (coordinates : Coordinates) (fits : coordinates.row < 2 ^ mapping.addressSlicer.row.size)
    (insideA : a.toNat < 2 ^ mapping.addressSlicer.bitSize) (insideB : b.toNat < 2 ^ mapping.addressSlicer.bitSize)
    (decodesA : mapping.Decodes a coordinates) (decodesB : mapping.Decodes b coordinates) :
    a = b := by
  have rawA := mapping.raw_of_decodes narrow several a coordinates fits decodesA
  have rawB := mapping.raw_of_decodes narrow several b coordinates fits decodesB
  rw [← mapping.addressSlicer.compose_raw a insideA, rawA, ← rawB,
    mapping.addressSlicer.compose_raw b insideB]

include narrow in
theorem decodes_surjective (several : 0 < mapping.segmentBits) (coordinates : Coordinates)
    (inside : BitFields.Fits mapping.addressSlicer.widths coordinates.fields)
    (fits : coordinates.row < 2 ^ mapping.addressSlicer.row.size) :
    ∃ address : Address, address.toNat < 2 ^ mapping.addressSlicer.bitSize ∧
      mapping.Decodes address coordinates := by
  have maskedInside := mapping.masked_fits narrow several coordinates.row fits coordinates inside
  have raw := mapping.addressSlicer.raw_compose narrow _ maskedInside
  refine ⟨mapping.addressSlicer.compose (mapping.masked narrow coordinates.row fits coordinates),
    mapping.addressSlicer.compose_lt narrow _ maskedInside, ?_⟩
  rw [mapping.decodes_iff narrow several]
  have row := congrArg Coordinates.row raw
  rw [mapping.masked_congr narrow _ _ row _ fits, raw]
  exact (mapping.masked_masked narrow _ _ _).symm

include narrow in
/-- Masks leave the offset alone, so they agree on addresses of one row. -/
theorem collision_iff (several : 0 < mapping.segmentBits) (a b : Address)
    (insideA : a.toNat < 2 ^ mapping.addressSlicer.bitSize) (insideB : b.toNat < 2 ^ mapping.addressSlicer.bitSize)
    (one other : Coordinates) (decodesA : mapping.Decodes a one)
    (decodesB : mapping.Decodes b other) :
    mapping.isCollision a b = true ↔ one.withoutOffset = other.withoutOffset := by
  have sameA := (mapping.decodes_iff narrow several a one).mp decodesA
  have sameB := (mapping.decodes_iff narrow several b other).mp decodesB
  unfold isCollision
  rw [decide_eq_true_iff]
  refine (mapping.addressSlicer.upper_eq_iff a b insideA insideB).trans ?_
  subst sameA sameB
  have through : ∀ (row : Nat) (fits : row < 2 ^ mapping.addressSlicer.row.size)
      (coordinates : Coordinates),
      (mapping.masked narrow row fits coordinates).withoutOffset =
        mapping.masked narrow row fits coordinates.withoutOffset := by
    intro row fits coordinates
    rfl
  constructor
  · intro same
    have rows := congrArg Coordinates.row same
    have row : (mapping.addressSlicer.raw a).row = (mapping.addressSlicer.raw b).row := rows
    rw [through, through, same]
    exact mapping.masked_congr narrow _ _ row _ _ _
  · intro same
    have rows := congrArg Coordinates.row same
    have row : (mapping.addressSlicer.raw a).row = (mapping.addressSlicer.raw b).row := rows
    rw [through, through, mapping.masked_congr narrow _ _ row _ (raw_row_fits _ b)] at same
    have back := congrArg (mapping.masked narrow _ (raw_row_fits _ b)) same
    rw [mapping.masked_masked, mapping.masked_masked] at back
    exact back

end Narrow

/-! ### Accepted geometries -/

structure Accepted (geometry : Geometry) : Prop where
  slicer : mapping.addressSlicer = makeSlicer geometry
  prefetch : 0 < mapping.prefetchSize
  banks : mapping.banks = geometry.banks
  bankgroups : mapping.bankgroups = geometry.bankgroups

variable {mapping}

theorem make_accepted {blockSize : Nat} {geometry : Geometry}
    (made : make blockSize geometry = some mapping) : mapping.Accepted geometry := by
  unfold make at made
  dsimp only at made
  split at made
  case isFalse => cases made
  case isTrue accepted =>
    cases made
    obtain ⟨prefetch, _width, _columns, _rows, banks, bankgroups, _ranks, _channels⟩ := accepted
    exact ⟨rfl, Nat.pos_of_ne_zero prefetch, banks.2, bankgroups.2⟩

theorem Accepted.several {geometry : Geometry} (accepted : mapping.Accepted geometry) :
    2 ≤ geometry.banks * geometry.bankgroups ↔ 0 < mapping.segmentBits := by
  rw [← accepted.banks, ← accepted.bankgroups]
  unfold AddressMapping.banks AddressMapping.bankgroups segmentBits
  rw [Nat.one_shiftLeft, Nat.one_shiftLeft, ← Nat.pow_add, Nat.add_comm]
  generalize mapping.addressSlicer.bankgroup.size + mapping.addressSlicer.bank.size = bits
  cases bits with
  | zero => simp
  | succ bits =>
      have power := Nat.two_pow_pos bits
      rw [Nat.pow_succ]
      omega

/-- The addresses from 0 to `size() - 1`. -/
def Inside (mapping : AddressMapping) (address : Address) : Prop :=
  ∃ size, mapping.memorySize = some size ∧ (address.toNat : Int) < size

theorem inside_iff (small : mapping.addressSlicer.bitSize ≤ 62) (address : Address) :
    mapping.Inside address ↔ address.toNat < 2 ^ mapping.addressSlicer.bitSize := by
  have power : 2 ^ mapping.addressSlicer.bitSize ≤ 2 ^ 62 :=
    Nat.pow_le_pow_right (by decide) small
  have count : (1#64 <<< mapping.addressSlicer.bitSize).toNat =
      2 ^ mapping.addressSlicer.bitSize := by
    rw [BitVec.toNat_shiftLeft, BitVec.toNat_ofNat, Nat.one_mod_two_pow (by decide),
      Nat.one_shiftLeft]
    exact Nat.mod_eq_of_lt (power.trans_lt (by decide))
  have signed : (1#64 <<< mapping.addressSlicer.bitSize).toInt =
      (2 ^ mapping.addressSlicer.bitSize : Nat) := by
    rw [BitVec.toInt_eq_toNat_of_lt, count]
    rw [count]
    omega
  unfold Inside memorySize
  rw [if_pos (by omega)]
  simp only [Option.some.injEq, exists_eq_left', signed, Int.ofNat_lt]

/-- Up to 62 bits the addresses of the memory and the coordinates in range are in bijection,
and two addresses collide when they differ in the offset only. -/
theorem decodes_bijective (blockSize : Nat) (geometry : Geometry) (mapping : AddressMapping)
    (made : make blockSize geometry = some mapping)
    (severalBanks : 2 ≤ geometry.banks * geometry.bankgroups)
    (small : mapping.addressSlicer.bitSize ≤ 62) :
    (∀ address : Address, mapping.Inside address →
      ∃! coordinates, mapping.Decodes address coordinates ∧ mapping.InRange coordinates) ∧
    (∀ coordinates, mapping.InRange coordinates →
      ∃! address : Address, mapping.Inside address ∧ mapping.Decodes address coordinates) ∧
    ∀ a b : Address, mapping.Inside a → mapping.Inside b →
      ∀ one other, mapping.Decodes a one → mapping.Decodes b other →
        (mapping.isCollision a b = true ↔ one.withoutOffset = other.withoutOffset) := by
  have accepted := make_accepted made
  have several := accepted.several.mp severalBanks
  have narrow : mapping.addressSlicer.bitSize ≤ 64 := small.trans (by decide)
  simp only [inside_iff small]
  refine ⟨?_, ?_, ?_⟩
  · intro address inside
    refine ⟨mapping.masked narrow _ (raw_row_fits _ address) (mapping.addressSlicer.raw address),
      ⟨(mapping.decodes_iff narrow several address _).mpr rfl, ?_⟩, ?_⟩
    · rw [mapping.inRange_iff accepted.prefetch]
      exact mapping.masked_fits narrow several _ _ _ (mapping.addressSlicer.raw_fits address)
    · intro other both
      exact (mapping.decodes_iff narrow several address other).mp both.1
  · intro coordinates inRange
    have inside := (mapping.inRange_iff accepted.prefetch coordinates).mp inRange
    have fits : coordinates.row < 2 ^ mapping.addressSlicer.row.size :=
      inRange.row.trans_eq (Nat.one_shiftLeft _)
    obtain ⟨address, within, decodes⟩ :=
      mapping.decodes_surjective narrow several coordinates inside fits
    refine ⟨address, ⟨within, decodes⟩, ?_⟩
    intro other both
    exact mapping.decodes_injective narrow several other address coordinates fits both.1 within
      both.2 decodes
  · intro a b insideA insideB one other decodesA decodesB
    exact mapping.collision_iff narrow several a b insideA insideB one other decodesA decodesB

/-- A memory of two channels of eight banks. -/
theorem decodes_bijective_eightBanks :
    ∃ mapping, make 64 ⟨8, 8, 2, 2, 2, 128, 2, 1024⟩ = some mapping ∧
      ∀ address : Address, mapping.Inside address →
        ∃! coordinates, mapping.Decodes address coordinates ∧ mapping.InRange coordinates := by
  have made : make 64 ⟨8, 8, 2, 2, 2, 128, 2, 1024⟩ = some ⟨⟨6, 1, 1, 1, 4, 1, 10⟩, 8⟩ := by
    decide +kernel
  exact ⟨_, made, (decodes_bijective 64 _ _ made (by decide) (by decide)).1⟩

/-- With 63 bits the count is negative: no address is inside, and nothing is decoded to the
coordinates in range. -/
theorem inside_overflows :
    ∃ mapping, make 64 ⟨8, 8, 2, 2, 2, 128, 2, 2 ^ 49⟩ = some mapping ∧
      mapping.addressSlicer.bitSize = 63 ∧ mapping.memorySize = some (-2 ^ 63) ∧
      ∃ coordinates, mapping.InRange coordinates ∧
        ¬∃ address : Address, mapping.Inside address ∧ mapping.Decodes address coordinates := by
  have made : make 64 ⟨8, 8, 2, 2, 2, 128, 2, 2 ^ 49⟩ = some ⟨⟨6, 1, 1, 1, 4, 1, 49⟩, 8⟩ := by
    decide +kernel
  have size : (⟨⟨6, 1, 1, 1, 4, 1, 49⟩, 8⟩ : AddressMapping).memorySize = some (-2 ^ 63) := by
    decide +kernel
  refine ⟨_, made, by decide, size, ⟨0, 0, 0, 0, 0, 0, 0⟩, ?_, ?_⟩
  · constructor <;> decide
  · rintro ⟨address, ⟨count, isCount, within⟩, _decodes⟩
    rw [size] at isCount
    cases isCount
    omega

/-! ### When the accessors return -/

theorem swizzleBits_diverges (fuel : Nat) (address : Address) (offset field bits : Nat)
    (narrow : mapping.addressSlicer.bitSize ≤ 64) :
    mapping.swizzleBits fuel address 0 offset field bits = none := by
  rw [mapping.swizzleBits_eq narrow]
  exact swizzleLoop_diverges _ _ _ _ _

/-- Three of the accessors run a loop, and return a value in range. -/
def LoopsReturn (mapping : AddressMapping) (address : Address) : Prop :=
  (∃ channel, Returns (fun fuel => mapping.getChannel fuel address) channel ∧
    channel < mapping.channels) ∧
  (∃ bankgroup, Returns (fun fuel => mapping.getBankgroup fuel address) bankgroup ∧
    bankgroup < mapping.bankgroups) ∧
  ∃ bank, Returns (fun fuel => mapping.getBank fuel address) bank ∧ bank < mapping.banks

/-- An accepted mapping has one bank, and asking for a bank never ends. -/
theorem loopsReturn_oneBank :
    ∃ mapping, make 64 ⟨8, 8, 1, 1, 1, 128, 1, 1024⟩ = some mapping ∧
      (∀ fuel, mapping.getBankgroup fuel 0 = none ∧ mapping.getBank fuel 0 = none) ∧
      ¬ LoopsReturn mapping 0 := by
  have made : make 64 ⟨8, 8, 1, 1, 1, 128, 1, 1024⟩ = some ⟨⟨6, 0, 0, 0, 4, 0, 10⟩, 8⟩ := by
    decide +kernel
  have narrow : (⟨⟨6, 0, 0, 0, 4, 0, 10⟩, 8⟩ : AddressMapping).addressSlicer.bitSize ≤ 64 := by
    decide
  obtain ⟨_channel, isBankgroup, isBank, _rest⟩ :=
    (⟨⟨6, 0, 0, 0, 4, 0, 10⟩, 8⟩ : AddressMapping).accessors_eq narrow 0
  have forever : ∀ fuel,
      (⟨⟨6, 0, 0, 0, 4, 0, 10⟩, 8⟩ : AddressMapping).getBank fuel 0 = none := by
    intro fuel
    rw [isBank fuel]
    exact swizzleBits_diverges fuel 0 _ _ _ narrow
  refine ⟨_, made, ?_, ?_⟩
  · intro fuel
    refine ⟨?_, forever fuel⟩
    rw [isBankgroup fuel]
    exact swizzleBits_diverges fuel 0 _ _ _ narrow
  · rintro ⟨_channel, _bankgroup, bank, ⟨fuel, ran⟩, _small⟩
    have none : none = some (Except.ok bank) := (forever fuel).symm.trans ran
    cases none

structure Settles (mapping : AddressMapping) : Prop where
  several : 0 < mapping.segmentBits
  narrow : mapping.addressSlicer.bitSize ≤ 64

theorem narrow_of_apply {address : Address} {slices : Slicer.Slices}
    (applied : mapping.addressSlicer.apply address = .ok slices) :
    mapping.addressSlicer.bitSize ≤ 64 := by
  by_contra wide
  rw [mapping.addressSlicer.apply_throws (Nat.lt_of_not_le wide) address] at applied
  cases applied

/-- An accessor of a bank that returns belongs to a mapping that settles. -/
theorem settles_of_getBank {address : Address} {bank : Nat}
    (returns : Returns (fun fuel => mapping.getBank fuel address) bank) : mapping.Settles := by
  obtain ⟨fuel, ran⟩ := returns
  have narrow : mapping.addressSlicer.bitSize ≤ 64 := by
    dsimp only [getBank] at ran
    cases applied : mapping.addressSlicer.apply address with
    | error thrown =>
        rw [applied] at ran
        cases ran
    | ok slices => exact narrow_of_apply applied
  refine ⟨?_, narrow⟩
  by_contra oneBank
  obtain ⟨_channel, _bankgroup, isBank, _rest⟩ := mapping.accessors_eq narrow address
  have noWidth : mapping.segmentBits = 0 := Nat.eq_zero_of_not_pos oneBank
  have stuck := isBank fuel
  rw [noWidth, swizzleBits_diverges fuel address _ _ _ narrow] at stuck
  have none : none = some (Except.ok bank) := stuck.symm.trans ran
  cases none

/-- The accessors return values in range when there is more than one bank and
the fields fit an address, and in no other case. -/
theorem loopsReturn_iff (blockSize : Nat) (geometry : Geometry) (mapping : AddressMapping)
    (made : make blockSize geometry = some mapping) (address : Address) :
    LoopsReturn mapping address ↔
      2 ≤ geometry.banks * geometry.bankgroups ∧ (makeSlicer geometry).bitSize ≤ 64 := by
  have accepted := make_accepted made
  rw [accepted.several, ← accepted.slicer]
  constructor
  · rintro ⟨_channel, _bankgroup, bank, returns, _small⟩
    have settles := settles_of_getBank returns
    exact ⟨settles.several, settles.narrow⟩
  · rintro ⟨several, narrow⟩
    have decodes := (mapping.decodes_iff narrow several address _).mpr rfl
    have inRange := (mapping.inRange_iff accepted.prefetch _).mpr
      (mapping.masked_fits narrow several _ (raw_row_fits _ address) _
        (mapping.addressSlicer.raw_fits address))
    exact ⟨⟨_, decodes.channel, inRange.channel⟩, ⟨_, decodes.bankgroup, inRange.bankgroup⟩,
      ⟨_, decodes.bank, inRange.bank⟩⟩

theorem loopsReturn_iff_eightBanks :
    ∃ mapping, make 64 ⟨8, 8, 2, 2, 2, 128, 2, 1024⟩ = some mapping ∧
      LoopsReturn mapping 0xdeadbeef := by
  have made : make 64 ⟨8, 8, 2, 2, 2, 128, 2, 1024⟩ = some ⟨⟨6, 1, 1, 1, 4, 1, 10⟩, 8⟩ := by
    decide +kernel
  exact ⟨_, made, (loopsReturn_iff 64 _ _ made 0xdeadbeef).mpr ⟨by decide, by decide +kernel⟩⟩

end AddressMapping

end ChampSim.Dram

/-
Slices of a slice. The bounds are relative to the slice and clamped to its
width, but the shift is not; where they differ, nothing of the shifted value is
left by the mask.

A shift of a value by its width or more is undefined. What it leaves is a
parameter of which nothing is assumed.
-/

import ChampSim.Splice

set_option autoImplicit false

namespace ChampSim.Slice

open Dram (AddressSlice DynamicExtent SliceError)
open Splice (bitAt Contains)

variable (oversized : BitVec 64 → Nat → BitVec 64)

/-- `value >> shamt`. -/
def shiftRight (value : BitVec 64) (shamt : Nat) : BitVec 64 :=
  if shamt < 64 then value >>> shamt else oversized value shamt

/-- `address_slice{ext, val}` with a raw value. -/
def ofRaw (extent : DynamicExtent) (val : BitVec 64) : Except SliceError AddressSlice :=
  if representable : extent.upper ≤ 64 then
    .ok
      { extent
        value := val.toNat % 2 ^ extent.size
        representable
        fits := Nat.mod_lt _ (Nat.two_pow_pos _) }
  else .error .upperBound

def slice (val : AddressSlice) (subextent : DynamicExtent) : Except SliceError AddressSlice :=
  ofRaw (DynamicExtent.relative val.extent subextent)
    (shiftRight oversized (BitVec.ofNat 64 val.value) subextent.lower)

/-- `dynamic_extent{upper, lower}`, unless its assertion fails. -/
def makeExtent (upper lower : Nat) : Option DynamicExtent :=
  if ordered : lower ≤ upper then some ⟨upper, lower, ordered⟩ else none

inductive SplitFailure where
  | assertion
  | thrown (error : SliceError)
deriving DecidableEq, Repr

def sliceBounds (val : AddressSlice) (upper lower : Nat) : Except SplitFailure AddressSlice :=
  match makeExtent upper lower with
  | none => .error .assertion
  | some subextent => (slice oversized val subextent).mapError .thrown

def sliceUpper (val : AddressSlice) (newLower : Nat) : Except SplitFailure AddressSlice :=
  sliceBounds oversized val 64 newLower

def sliceLower (val : AddressSlice) (newUpper : Nat) : Except SplitFailure AddressSlice :=
  sliceBounds oversized val newUpper 0

def split (val : AddressSlice) (splitLoc : Nat) :
    Except SplitFailure (AddressSlice × AddressSlice) := do
  let upper ← sliceUpper oversized val splitLoc
  let lower ← sliceLower oversized val splitLoc
  .ok (upper, lower)

/-! ### Bits -/

theorem slice_ext {first second : AddressSlice} (extent : first.extent = second.extent)
    (bits : ∀ position, bitAt first position = bitAt second position) : first = second := by
  have value : first.value = second.value := by
    apply Nat.eq_of_testBit_eq
    intro place
    have same := bits (first.extent.lower + place)
    unfold bitAt at same
    rw [← extent, decide_eq_true (Nat.le_add_right _ _), Bool.true_and, Bool.true_and,
      Nat.add_sub_cancel_left] at same
    exact same
  cases first
  cases second
  cases extent
  cases value
  rfl

theorem extent_ext {first second : DynamicExtent} (upper : first.upper = second.upper)
    (lower : first.lower = second.lower) : first = second := by
  cases first
  cases second
  cases upper
  cases lower
  rfl

theorem shiftRight_toNat (val : AddressSlice) {shamt : Nat} (within : shamt < val.extent.size) :
    (shiftRight oversized (BitVec.ofNat 64 val.value) shamt).toNat = val.value >>> shamt := by
  have narrow : val.extent.size ≤ 64 := (Nat.sub_le _ _).trans val.representable
  have small : val.value < 2 ^ 64 :=
    val.fits.trans_le (Nat.pow_le_pow_right (by decide) narrow)
  unfold shiftRight
  rw [if_pos (within.trans_le narrow), BitVec.toNat_ushiftRight, BitVec.toNat_ofNat,
    Nat.mod_eq_of_lt small]

theorem ofRaw_returns {extent : DynamicExtent} (representable : extent.upper ≤ 64)
    (val : BitVec 64) :
    ∃ part, ofRaw extent val = .ok part ∧ part.extent = extent ∧
      part.value = val.toNat % 2 ^ extent.size := ⟨_, dif_pos representable, rfl, rfl⟩

/-- A slice of a slice has the bits of the slice in its extent, and no others. -/
theorem slice_returns (val : AddressSlice) (subextent : DynamicExtent) :
    ∃ part, slice oversized val subextent = .ok part ∧
      part.extent = DynamicExtent.relative val.extent subextent ∧
      ∀ position, bitAt part position =
        (decide (Contains part.extent position) && bitAt val position) := by
  have ordered := val.extent.ordered
  have lower : (DynamicExtent.relative val.extent subextent).lower =
      val.extent.lower + min subextent.lower (val.extent.upper - val.extent.lower) := rfl
  have upper : (DynamicExtent.relative val.extent subextent).upper =
      val.extent.lower + min subextent.upper (val.extent.upper - val.extent.lower) := rfl
  have representable : (DynamicExtent.relative val.extent subextent).upper ≤ 64 := by
    have whole := val.representable
    omega
  obtain ⟨part, returned, extent, value⟩ := ofRaw_returns representable
    (shiftRight oversized (BitVec.ofNat 64 val.value) subextent.lower)
  refine ⟨part, returned, extent, ?_⟩
  intro position
  rw [extent]
  by_cases contained : Contains (DynamicExtent.relative val.extent subextent) position
  · obtain ⟨above, below⟩ := contained
    have within : subextent.lower < val.extent.size := by
      unfold DynamicExtent.size
      omega
    have shifted := shiftRight_toNat oversized val within
    have inside : position - (DynamicExtent.relative val.extent subextent).lower <
        (DynamicExtent.relative val.extent subextent).size := by
      unfold DynamicExtent.size
      omega
    have place : subextent.lower +
        (position - (DynamicExtent.relative val.extent subextent).lower) =
        position - val.extent.lower := by
      unfold DynamicExtent.size at within
      omega
    rw [decide_eq_true ⟨above, below⟩, Bool.true_and]
    unfold bitAt
    rw [extent, value, shifted, Nat.testBit_mod_two_pow, decide_eq_true inside,
      Nat.testBit_shiftRight, place, decide_eq_true above,
      decide_eq_true (by omega : val.extent.lower ≤ position), Bool.true_and]
  · rw [decide_eq_false contained, Bool.false_and]
    exact Bool.eq_false_iff.mpr (fun set =>
      contained (extent ▸ Splice.contains_of_bitAt set))

/-- The conversion of the slice to the relative extent cuts the same slice. -/
theorem slice_eq_ofSlice (val : AddressSlice) (subextent : DynamicExtent) :
    slice oversized val subextent = val.slice subextent := by
  obtain ⟨part, returned, extent, bits⟩ := slice_returns oversized val subextent
  have representable : (DynamicExtent.relative val.extent subextent).upper ≤ 64 :=
    extent ▸ part.representable
  rw [returned]
  unfold AddressSlice.slice AddressSlice.ofSlice
  rw [dif_pos representable]
  apply congrArg Except.ok
  apply slice_ext extent
  intro position
  rw [bits]
  by_cases contained : Contains part.extent position
  · have inside : position - (DynamicExtent.relative val.extent subextent).lower <
        (DynamicExtent.relative val.extent subextent).size := by
      rw [extent] at contained
      obtain ⟨above, below⟩ := contained
      unfold DynamicExtent.size
      omega
    rw [decide_eq_true contained, Bool.true_and]
    rw [extent] at contained
    have above := contained.1
    unfold bitAt
    simp only
    rw [Nat.testBit_mod_two_pow, decide_eq_true inside, Nat.testBit_shiftRight,
      Nat.add_sub_cancel' above, Nat.testBit_shiftLeft, decide_eq_true above, Bool.true_and,
      Bool.true_and]
  · rw [decide_eq_false contained, Bool.false_and]
    refine (Bool.eq_false_iff.mpr (fun set => contained ?_)).symm
    rw [extent]
    exact Splice.contains_of_bitAt set

theorem relative_relative (extent first second : DynamicExtent) :
    DynamicExtent.relative (DynamicExtent.relative extent first) second =
      DynamicExtent.relative extent (DynamicExtent.relative first second) := by
  have ordered := extent.ordered
  have firstOrdered := first.ordered
  apply extent_ext
  · unfold DynamicExtent.relative DynamicExtent.size
    simp only
    omega
  · unfold DynamicExtent.relative DynamicExtent.size
    simp only
    omega

theorem contains_of_relative {extent subextent : DynamicExtent} {position : Nat}
    (contained : Contains (DynamicExtent.relative extent subextent) position) :
    Contains extent position := by
  have ordered := extent.ordered
  unfold Contains DynamicExtent.relative DynamicExtent.size at contained
  unfold Contains
  simp only at contained
  omega

/-! ### The laws -/

theorem slice_slice (val : AddressSlice) (first second : DynamicExtent) :
    ∃ middle part, slice oversized val first = .ok middle ∧
      slice oversized middle second = .ok part ∧
      slice oversized val (DynamicExtent.relative first second) = .ok part := by
  obtain ⟨middle, cutFirst, middleExtent, middleBits⟩ := slice_returns oversized val first
  obtain ⟨part, cutSecond, partExtent, partBits⟩ := slice_returns oversized middle second
  obtain ⟨whole, cutOnce, wholeExtent, wholeBits⟩ :=
    slice_returns oversized val (DynamicExtent.relative first second)
  have extent : part.extent = whole.extent := by
    rw [partExtent, middleExtent, relative_relative, wholeExtent]
  have same : part = whole := by
    apply slice_ext extent
    intro position
    rw [partBits, middleBits, wholeBits, extent]
    by_cases contained : Contains whole.extent position
    · have inMiddle : Contains middle.extent position := by
        rw [← extent, partExtent] at contained
        exact contains_of_relative contained
      rw [decide_eq_true inMiddle, Bool.true_and]
    · rw [decide_eq_false contained, Bool.false_and, Bool.false_and]
  exact ⟨middle, part, cutFirst, cutSecond, same ▸ cutOnce⟩

/-- The parts of a split meet at the split point, or at the end of the slice. -/
theorem split_returns (val : AddressSlice) {splitLoc : Nat} (within : splitLoc ≤ 64) :
    ∃ upper lower, split oversized val splitLoc = .ok (upper, lower) ∧
      upper.extent.upper = val.extent.upper ∧ upper.extent.lower = lower.extent.upper ∧
      lower.extent.lower = val.extent.lower ∧
      (∀ position, bitAt upper position =
        (decide (Contains upper.extent position) && bitAt val position)) ∧
      ∀ position, bitAt lower position =
        (decide (Contains lower.extent position) && bitAt val position) := by
  have ordered := val.extent.ordered
  have representable := val.representable
  obtain ⟨upper, cutUpper, upperExtent, upperBits⟩ :=
    slice_returns oversized val ⟨64, splitLoc, within⟩
  obtain ⟨lower, cutLower, lowerExtent, lowerBits⟩ :=
    slice_returns oversized val ⟨splitLoc, 0, Nat.zero_le _⟩
  refine ⟨upper, lower, ?_, ?_, ?_, ?_, upperBits, lowerBits⟩
  · unfold split sliceUpper sliceLower sliceBounds makeExtent
    rw [dif_pos within, dif_pos (Nat.zero_le splitLoc)]
    simp only
    rw [cutUpper, cutLower]
    rfl
  · rw [upperExtent]
    change val.extent.lower + min 64 (val.extent.upper - val.extent.lower) = _
    omega
  · rw [upperExtent, lowerExtent]
    rfl
  · rw [lowerExtent]
    change val.extent.lower + min 0 (val.extent.upper - val.extent.lower) = _
    omega

theorem splice_split (val : AddressSlice) {splitLoc : Nat} (within : splitLoc ≤ 64) :
    ∃ upper lower, split oversized val splitLoc = .ok (upper, lower) ∧
      Splice.splice upper [lower] = .ok val := by
  obtain ⟨upper, lower, cut, highest, meet, lowest, upperBits, lowerBits⟩ :=
    split_returns oversized val within
  obtain ⟨joined, returned, joinedExtent, joinedBits⟩ := Splice.splice_returns upper [lower]
  have upperOrdered := upper.extent.ordered
  have lowerOrdered := lower.extent.ordered
  refine ⟨upper, lower, cut, ?_⟩
  rw [returned]
  apply congrArg Except.ok
  apply slice_ext
  · rw [joinedExtent]
    change Splice.extentUnion upper.extent lower.extent = val.extent
    apply extent_ext
    · change max upper.extent.upper lower.extent.upper = _
      omega
    · change min upper.extent.lower lower.extent.lower = _
      omega
  · intro position
    rw [joinedBits]
    change (if Contains lower.extent position then bitAt lower position
      else bitAt upper position) = _
    split
    · rename_i contained
      rw [lowerBits, decide_eq_true contained, Bool.true_and]
    · rename_i outside
      rw [upperBits]
      by_cases set : bitAt val position = true
      · have inside := Splice.contains_of_bitAt set
        have contained : Contains upper.extent position := by
          unfold Contains at inside outside ⊢
          omega
        rw [decide_eq_true contained, Bool.true_and]
      · rw [Bool.not_eq_true] at set
        rw [set, Bool.and_false]

/-- A split point beyond the width of an address fails the assertion of the extent. -/
theorem split_assertion (val : AddressSlice) {splitLoc : Nat} (beyond : 64 < splitLoc) :
    split oversized val splitLoc = .error .assertion := by
  unfold split sliceUpper sliceBounds makeExtent
  rw [dif_neg (Nat.not_le_of_lt beyond)]
  rfl

/-- What is split is spliced back, and slices compose. -/
theorem slice_laws (val : AddressSlice) :
    (∀ splitLoc upper lower, split oversized val splitLoc = .ok (upper, lower) →
      Splice.splice upper [lower] = .ok val) ∧
    (∀ splitLoc, (∃ parts, split oversized val splitLoc = .ok parts) ↔ splitLoc ≤ 64) ∧
    ∀ first second, ∃ middle part, slice oversized val first = .ok middle ∧
      slice oversized middle second = .ok part ∧
      slice oversized val (DynamicExtent.relative first second) = .ok part := by
  refine ⟨?_, ?_, slice_slice oversized val⟩
  · intro splitLoc upper lower parts
    rcases Nat.lt_or_ge 64 splitLoc with beyond | within
    · rw [split_assertion oversized val beyond] at parts
      cases parts
    · obtain ⟨other, rest, same, spliced⟩ := splice_split oversized val within
      rw [parts] at same
      cases same
      exact spliced
  · intro splitLoc
    constructor
    · rintro ⟨parts, returned⟩
      by_contra beyond
      rw [split_assertion oversized val (Nat.not_le.mp beyond)] at returned
      cases returned
    · intro within
      obtain ⟨upper, lower, returned, _spliced⟩ := splice_split oversized val within
      exact ⟨(upper, lower), returned⟩

end ChampSim.Slice

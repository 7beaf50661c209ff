/-
The offset between two slices: the absolute difference, which has to fit the
signed difference type before it is negated.

Slices of different bounds are not compared. The difference is taken in the
underlying type, and the sum is masked to the size of the slice.
-/

import ChampSim.Dram.AddressMapping
import Mathlib.Algebra.Order.Group.Unbundled.Int

set_option autoImplicit false

namespace ChampSim.Slice

open Dram (AddressSlice DynamicExtent)

/-- The `std::invalid_argument`s "Upper bounds do not match" and "Lower bounds do not match", and
the `std::overflow_error`s of `uoffset` and `offset` with the two slices that their texts name. -/
inductive OffsetError where
  | upperBounds
  | lowerBounds
  | unsignedOverflow (base other : AddressSlice)
  | signedOverflow (base other : AddressSlice)
deriving DecidableEq, Repr

/-! ### The operations -/

def checkBounds (lhs rhs : AddressSlice) : Except OffsetError Unit :=
  if lhs.extent.upper ≠ rhs.extent.upper then .error .upperBounds
  else if lhs.extent.lower ≠ rhs.extent.lower then .error .lowerBounds
  else .ok ()

/-- `operator<`. -/
def less (lhs rhs : AddressSlice) : Except OffsetError Bool := do
  checkBounds lhs rhs
  .ok (decide (lhs.value < rhs.value))

/-- `operator==`. -/
def equal (lhs rhs : AddressSlice) : Except OffsetError Bool := do
  checkBounds lhs rhs
  .ok (decide (lhs.value = rhs.value))

/-- `operator<=`. -/
def lessEqual (lhs rhs : AddressSlice) : Except OffsetError Bool := do
  if ← less lhs rhs then .ok true else equal lhs rhs

/-- `operator>`, which does not check the bounds. -/
def greater (lhs rhs : AddressSlice) : Bool := !decide (lhs.value ≤ rhs.value)

/-- `operator+`. -/
def add (slice : AddressSlice) (delta : BitVec 64) : AddressSlice where
  extent := slice.extent
  value := (BitVec.ofNat 64 slice.value + delta).toNat % 2 ^ slice.extent.size
  representable := slice.representable
  fits := Nat.mod_lt _ (Nat.two_pow_pos _)

def uoffset (base other : AddressSlice) : Except OffsetError (BitVec 64) :=
  if greater base other then .error (.unsignedOverflow base other)
  else .ok (BitVec.ofNat 64 other.value - BitVec.ofNat 64 base.value)

/-- The result is read as a signed number. -/
def offset (base other : AddressSlice) : Except OffsetError (BitVec 64) := do
  let resultSign ← lessEqual base other
  let absDiff ← (if resultSign then uoffset base other else uoffset other base)
  if 2 ^ 63 - 1 < absDiff.toNat then .error (.signedOverflow base other)
  else if resultSign then .ok absDiff
  else .ok (-absDiff)

/-! ### What they compute -/

theorem value_lt (slice : AddressSlice) : slice.value < 2 ^ 64 := by
  have representable := slice.representable
  have narrow : slice.extent.size ≤ 64 := (Nat.sub_le _ _).trans representable
  exact slice.fits.trans_le (Nat.pow_le_pow_right (by decide) narrow)

variable {base other : AddressSlice}

theorem uoffset_of_le (ordered : base.value ≤ other.value) :
    ∃ u, uoffset base other = .ok u ∧ u.toNat = other.value - base.value := by
  have large := value_lt other
  have small := value_lt base
  refine ⟨_, if_neg ?_, ?_⟩
  · unfold greater
    rw [decide_eq_true ordered]
    exact Bool.false_ne_true
  · have first : (BitVec.ofNat 64 other.value).toNat = other.value := Nat.mod_eq_of_lt large
    have second : (BitVec.ofNat 64 base.value).toNat = base.value := Nat.mod_eq_of_lt small
    rw [BitVec.toNat_sub_of_le, first, second]
    rw [BitVec.le_def, first, second]
    exact ordered

theorem uoffset_of_gt (reversed : other.value < base.value) :
    uoffset base other = .error (.unsignedOverflow base other) := by
  apply if_pos
  unfold greater
  rw [decide_eq_false (Nat.not_le_of_lt reversed)]
  rfl

theorem uoffset_throws_iff :
    uoffset base other = .error (.unsignedOverflow base other) ↔ other.value < base.value := by
  constructor
  · intro thrown
    by_contra ordered
    obtain ⟨u, found, _size⟩ := uoffset_of_le (Nat.not_lt.mp ordered)
    rw [found] at thrown
    cases thrown
  · exact uoffset_of_gt

theorem thrown_of_uoffset {thrown : OffsetError} (found : uoffset base other = .error thrown) :
    thrown = .unsignedOverflow base other := by
  unfold uoffset at found
  split at found
  · exact (Except.error.inj found).symm
  · cases found

theorem lessEqual_of_sameExtent (sameExtent : base.extent = other.extent) :
    lessEqual base other = .ok (decide (base.value ≤ other.value)) := by
  have checked : checkBounds base other = .ok () := by
    unfold checkBounds
    rw [if_neg (not_not_intro (congrArg DynamicExtent.upper sameExtent)),
      if_neg (not_not_intro (congrArg DynamicExtent.lower sameExtent))]
  unfold lessEqual less equal
  rw [checked]
  change (if decide (base.value < other.value) = true then _ else _) = _
  split
  · rename_i first
    rw [decide_eq_true (of_decide_eq_true first).le]
  · rename_i notFirst
    have least : other.value ≤ base.value :=
      Nat.not_lt.mp (fun first => notFirst (decide_eq_true first))
    change Except.ok (decide (base.value = other.value)) = _
    exact congrArg Except.ok (decide_eq_decide.mpr (by omega))

/-- A delta that is congruent to the difference leads from one slice to the other. -/
theorem add_eq (sameExtent : base.extent = other.extent) {delta : BitVec 64}
    (sum : BitVec.ofNat 64 base.value + delta = BitVec.ofNat 64 other.value) :
    add base delta = other := by
  have value : (BitVec.ofNat 64 base.value + delta).toNat % 2 ^ base.extent.size = other.value := by
    rw [sum, sameExtent, BitVec.toNat_ofNat, Nat.mod_eq_of_lt (value_lt other)]
    exact Nat.mod_eq_of_lt other.fits
  cases base
  cases other
  cases sameExtent
  cases value
  rfl

theorem offset_of_le (sameExtent : base.extent = other.extent) (ordered : base.value ≤ other.value)
    {u : BitVec 64} (found : uoffset base other = .ok u) :
    offset base other =
      if 2 ^ 63 - 1 < u.toNat then .error (.signedOverflow base other) else .ok u := by
  unfold offset
  rw [lessEqual_of_sameExtent sameExtent, decide_eq_true ordered]
  change (uoffset base other >>= _) = _
  rw [found]
  rfl

theorem offset_of_gt (sameExtent : base.extent = other.extent) (reversed : other.value < base.value)
    {u : BitVec 64} (found : uoffset other base = .ok u) :
    offset base other =
      if 2 ^ 63 - 1 < u.toNat then .error (.signedOverflow base other) else .ok (-u) := by
  unfold offset
  rw [lessEqual_of_sameExtent sameExtent, decide_eq_false (Nat.not_le_of_lt reversed)]
  change (uoffset other base >>= _) = _
  rw [found]
  rfl

theorem eq_sub_of_uoffset {u : BitVec 64} (found : uoffset base other = .ok u) :
    u = BitVec.ofNat 64 other.value - BitVec.ofNat 64 base.value := by
  unfold uoffset at found
  split at found
  · cases found
  · exact (Except.ok.inj found).symm

theorem add_uoffset (sameExtent : base.extent = other.extent) {u : BitVec 64}
    (found : uoffset base other = .ok u) : add base u = other := by
  apply add_eq sameExtent
  rw [eq_sub_of_uoffset found, BitVec.add_comm]
  exact BitVec.sub_add_cancel _ _

theorem add_neg_uoffset (sameExtent : base.extent = other.extent) {u : BitVec 64}
    (found : uoffset other base = .ok u) : add base (-u) = other := by
  apply add_eq sameExtent
  rw [eq_sub_of_uoffset found, BitVec.neg_sub, ← BitVec.add_assoc, BitVec.add_neg_eq_sub,
    BitVec.sub_self, BitVec.zero_add]

/-- The offset exactly: an absolute value that does not fit is an overflow. -/
theorem offset_cases (sameExtent : base.extent = other.extent) :
    (offset base other = .error (.signedOverflow base other) ∧
        2 ^ 63 - 1 < |(other.value : Int) - base.value|) ∨
      ∃ d, offset base other = .ok d ∧ add base d = other ∧
        d.toInt = (other.value : Int) - base.value ∧
        |(other.value : Int) - base.value| ≤ 2 ^ 63 - 1 := by
  rcases Nat.lt_or_ge other.value base.value with reversed | ordered
  · obtain ⟨u, found, size⟩ := uoffset_of_le reversed.le
    have absolute : |(other.value : Int) - base.value| = base.value - other.value := by
      rw [abs_of_nonpos (by omega)]
      omega
    rw [offset_of_gt sameExtent reversed found, absolute]
    split
    · exact Or.inl ⟨rfl, by omega⟩
    · have positive : u.msb = false := by
        rw [BitVec.msb_eq_false_iff_two_mul_lt]
        omega
      refine Or.inr ⟨-u, rfl, add_neg_uoffset sameExtent found, ?_, by omega⟩
      rw [BitVec.toInt_neg_eq_of_msb positive, BitVec.toInt_eq_toNat_of_lt (by omega)]
      omega
  · obtain ⟨u, found, size⟩ := uoffset_of_le ordered
    have absolute : |(other.value : Int) - base.value| = other.value - base.value :=
      abs_of_nonneg (by omega)
    rw [offset_of_le sameExtent ordered found, absolute]
    split
    · exact Or.inl ⟨rfl, by omega⟩
    · refine Or.inr ⟨u, rfl, add_uoffset sameExtent found, ?_, by omega⟩
      rw [BitVec.toInt_eq_toNat_of_lt (by omega)]
      omega

/-- An offset leads from the first slice to the second one, and overflows exactly if the absolute
difference is at least `2^63`. An unsigned offset overflows exactly if the first slice is after the
second one. -/
theorem offset_iff (base other : AddressSlice) (sameExtent : base.extent = other.extent) :
    (∀ d, offset base other = .ok d →
      add base d = other ∧ d.toInt = (other.value : Int) - base.value) ∧
    (∀ thrown, offset base other = .error thrown → thrown = .signedOverflow base other) ∧
    (offset base other = .error (.signedOverflow base other) ↔
      2 ^ 63 - 1 < |(other.value : Int) - base.value|) ∧
    (∀ u, uoffset base other = .ok u → add base u = other) ∧
    (∀ thrown, uoffset base other = .error thrown → thrown = .unsignedOverflow base other) ∧
    (uoffset base other = .error (.unsignedOverflow base other) ↔ other.value < base.value) := by
  rcases offset_cases sameExtent with ⟨overflow, large⟩ | ⟨d, found, leads, exactly, small⟩
  · refine ⟨?_, ?_, iff_of_true overflow large, fun u => add_uoffset sameExtent,
      fun thrown => thrown_of_uoffset, uoffset_throws_iff⟩
    · intro d found
      rw [overflow] at found
      cases found
    · intro thrown found
      rw [overflow] at found
      exact (Except.error.inj found).symm
  · refine ⟨?_, ?_, iff_of_false ?_ (not_lt_of_ge small), fun u => add_uoffset sameExtent,
      fun thrown => thrown_of_uoffset, uoffset_throws_iff⟩
    · intro result returned
      rw [found] at returned
      cases returned
      exact ⟨leads, exactly⟩
    · intro thrown failed
      rw [found] at failed
      cases failed
    · intro failed
      rw [found] at failed
      cases failed

theorem offset_iff_blocks :
    add (.ofAddress 0x1000) (-0x40#64) = .ofAddress 0xfc0 ∧
      (-0x40#64).toInt = ((AddressSlice.ofAddress 0xfc0).value : Int) -
        (AddressSlice.ofAddress 0x1000).value :=
  (offset_iff (.ofAddress 0x1000) (.ofAddress 0xfc0) rfl).1 (-0x40#64) (by decide)

/-- The least signed number is a difference that overflows. -/
theorem offset_least :
    offset (.ofAddress 0x8000000000000000) (.ofAddress 0) =
        .error (.signedOverflow (.ofAddress 0x8000000000000000) (.ofAddress 0)) ∧
      ((AddressSlice.ofAddress 0).value : Int) -
        (AddressSlice.ofAddress 0x8000000000000000).value = -2 ^ 63 := by
  decide

end ChampSim.Slice

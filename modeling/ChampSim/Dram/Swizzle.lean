/-
The swizzle of a field with the row bits: when its loop ends, and what it gives.

The segments stay inside the row whatever their number, so the loop only ever
gives the field xor a mask of the row.
-/

import ChampSim.Dram.AddressMapping
import Mathlib.Algebra.Order.Group.Nat

set_option autoImplicit false

namespace ChampSim.Dram

namespace DynamicExtent

variable (superextent subextent : DynamicExtent)

theorem relative_upper : (relative superextent subextent).upper ≤ superextent.upper := by
  have ordered := superextent.ordered
  unfold relative size
  dsimp only
  omega

/-- A relative extent is no wider than the extent that it was asked for. -/
theorem relative_size : (relative superextent subextent).size ≤ subextent.size := by
  have ordered := subextent.ordered
  unfold relative size
  dsimp only
  omega

end DynamicExtent

namespace AddressSlice

theorem slice_ok (val : AddressSlice) (subextent : DynamicExtent) :
    ∃ part : AddressSlice, val.slice subextent = .ok part ∧
      part.extent = DynamicExtent.relative val.extent subextent :=
  ⟨_, dif_pos ((DynamicExtent.relative_upper _ _).trans val.representable), rfl⟩

theorem slice_lt {val part : AddressSlice} {subextent : DynamicExtent}
    (sliced : val.slice subextent = .ok part) : part.value < 2 ^ subextent.size := by
  obtain ⟨other, slicedToo, extent⟩ := val.slice_ok subextent
  have same : other = part := Except.ok.inj (slicedToo.symm.trans sliced)
  have fits := part.fits
  rw [← same, extent, same] at fits
  exact fits.trans_le (Nat.pow_le_pow_right Nat.two_pos (DynamicExtent.relative_size _ _))

theorem segment_ok (row : AddressSlice) (subextent : DynamicExtent) (offset bits : Nat) :
    ∃ part : AddressSlice,
      ((row.slice subextent).bind fun segment => segment.slice (.ofSize offset bits)) =
        .ok part ∧ part.value < 2 ^ bits := by
  obtain ⟨segment, sliced, _extent⟩ := row.slice_ok subextent
  obtain ⟨part, slicedToo, _extentToo⟩ := segment.slice_ok (.ofSize offset bits)
  refine ⟨part, ?_, ?_⟩
  · rw [sliced]
    exact slicedToo
  · have small := slice_lt slicedToo
    rw [DynamicExtent.ofSize_size] at small
    exact small

end AddressSlice

namespace AddressMapping

private theorem xor_through (one other part : Nat) :
    one ^^^ part ^^^ (other ^^^ part) = one ^^^ other := by
  rw [Nat.xor_comm other part, ← Nat.xor_assoc, Nat.xor_assoc one part part, Nat.xor_self,
    Nat.xor_zero]

section Loop

variable (row : AddressSlice) (segmentSize segmentOffset fieldBits : Nat)

theorem swizzleLoop_permute (fuel : Nat) :
    ∀ (subextent : DynamicExtent) (mask other : Nat),
      swizzleLoop row segmentSize segmentOffset fieldBits fuel subextent other =
          some (.ok mask) →
      ∀ permuteField, swizzleLoop row segmentSize segmentOffset fieldBits fuel subextent
        permuteField = some (.ok (permuteField ^^^ other ^^^ mask)) := by
  induction fuel with
  | zero =>
      intro subextent mask other ran
      cases ran
  | succ fuel continues =>
      intro subextent mask other ran permuteField
      obtain ⟨part, sliced, _small⟩ := row.segment_ok subextent segmentOffset fieldBits
      unfold swizzleLoop at ran ⊢
      rw [sliced] at ran ⊢
      by_cases more : subextent.upper ≤ row.extent.upper
      · rw [if_pos more] at ran ⊢
        dsimp only at ran ⊢
        rw [continues _ _ _ ran, xor_through]
      · rw [if_neg more] at ran ⊢
        cases ran
        rw [Nat.xor_assoc, Nat.xor_self, Nat.xor_zero]

theorem swizzleLoop_returns (positive : 0 < segmentSize) (fuel : Nat) :
    ∀ (low field : Nat), row.extent.upper - low < fuel → field < 2 ^ fieldBits →
      ∃ result, swizzleLoop row segmentSize segmentOffset fieldBits fuel
        (.ofSize low segmentSize) field = some (.ok result) ∧ result < 2 ^ fieldBits := by
  induction fuel with
  | zero =>
      intro low field enough _small
      exact absurd enough (Nat.not_lt_zero _)
  | succ fuel continues =>
      intro low field enough small
      obtain ⟨part, sliced, smallPart⟩ :=
        row.segment_ok (.ofSize low segmentSize) segmentOffset fieldBits
      unfold swizzleLoop
      rw [sliced]
      by_cases more : (DynamicExtent.ofSize low segmentSize).upper ≤ row.extent.upper
      · rw [if_pos more]
        refine continues _ _ ?_ (Nat.xor_lt_two_pow small smallPart)
        rw [DynamicExtent.ofSize_upper] at more ⊢
        omega
      · rw [if_neg more]
        exact ⟨field, rfl, small⟩

theorem swizzleLoop_mono (fuel more : Nat) (result : Except SliceError Nat) :
    ∀ (subextent : DynamicExtent) (field : Nat),
      swizzleLoop row segmentSize segmentOffset fieldBits fuel subextent field = some result →
      swizzleLoop row segmentSize segmentOffset fieldBits (fuel + more) subextent field =
        some result := by
  induction fuel with
  | zero =>
      intro subextent field ran
      cases ran
  | succ fuel continues =>
      intro subextent field ran
      obtain ⟨part, sliced, _small⟩ := row.segment_ok subextent segmentOffset fieldBits
      rw [Nat.succ_add]
      unfold swizzleLoop at ran ⊢
      rw [sliced] at ran ⊢
      by_cases again : subextent.upper ≤ row.extent.upper
      · rw [if_pos again] at ran ⊢
        exact continues _ _ ran
      · rw [if_neg again] at ran ⊢
        exact ran

theorem swizzleLoop_diverges (fuel : Nat) :
    ∀ field, swizzleLoop row 0 segmentOffset fieldBits fuel (.ofSize 0 0) field = none := by
  induction fuel with
  | zero =>
      intro field
      rfl
  | succ fuel continues =>
      intro field
      obtain ⟨part, sliced, _small⟩ := row.segment_ok (.ofSize 0 0) segmentOffset fieldBits
      unfold swizzleLoop
      rw [sliced, if_pos (show (DynamicExtent.ofSize 0 0).upper ≤ row.extent.upper from Nat.zero_le _)]
      exact continues _

end Loop

end AddressMapping

end ChampSim.Dram

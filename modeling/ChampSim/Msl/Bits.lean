/-
The next power of two of inc/msl/bits.h.

The number of smearing steps is the logarithm of the number of value bits. For
an unsigned type they reach over the whole width, for a signed type over half of
it.
-/

import ChampSim.Library.Smear
import ChampSim.Msl.IntegerType

set_option autoImplicit false

namespace ChampSim.Msl

open Smear (Gapless PowersFrom smear)

/-- `lg2`, the count of its loop. -/
def lg2 (n : Nat) : Nat :=
  if n >>> 1 = 0 then 0 else lg2 (n >>> 1) + 1
termination_by n
decreasing_by
  rw [Nat.shiftRight_eq_div_pow] at *
  omega

theorem lg2_eq_log2 (n : Nat) : lg2 n = n.log2 := by
  induction n using lg2.induct with
  | case1 n small =>
      rw [lg2, if_pos small, Nat.log2_def]
      rw [Nat.shiftRight_eq_div_pow] at small
      rw [if_neg (by omega)]
  | case2 n large ih =>
      rw [lg2, if_neg large, ih, n.log2_def]
      rw [Nat.shiftRight_eq_div_pow] at large ⊢
      rw [if_pos (by omega), Nat.pow_one]

variable {type : IntegerType}

/-- `n >> shamt`, which copies the sign. -/
def shiftRight (type : IntegerType) (n : BitVec type.width) (shamt : Nat) : BitVec type.width :=
  if type.isSigned then n.sshiftRight shamt else n >>> shamt

/-- The loop of `next_pow2`. -/
def smearBits (type : IntegerType) (n : BitVec type.width) (steps : Nat) : BitVec type.width :=
  (List.range steps).foldl (fun n i => n ||| shiftRight type n (1 <<< i)) n

def nextPow2 (type : IntegerType) (n : BitVec type.width) : BitVec type.width :=
  smearBits type (n - 1) (lg2 type.digits) + 1

theorem shiftRight_toNat {n : BitVec type.width} (small : n.toNat < 2 ^ type.digits)
    (shamt : Nat) : (shiftRight type n shamt).toNat = n.toNat >>> shamt := by
  unfold shiftRight
  rcases type.digits_lt_or_eq with ⟨signed, wide⟩ | ⟨unsigned, _wide⟩
  · have double : 2 ^ type.width = 2 ^ type.digits * 2 := by
      rw [← wide, Nat.pow_succ]
    rw [if_pos signed, BitVec.sshiftRight_eq_of_msb_false, BitVec.toNat_ushiftRight]
    rw [BitVec.msb_eq_false_iff_two_mul_lt]
    omega
  · rw [unsigned, if_neg Bool.false_ne_true, BitVec.toNat_ushiftRight]

theorem smearBits_toNat {n : BitVec type.width} (small : n.toNat < 2 ^ type.digits) (steps : Nat) :
    (smearBits type n steps).toNat = smear n.toNat steps := by
  induction steps with
  | zero => rfl
  | succ steps ih =>
      have narrow : n.toNat.size ≤ type.digits := Nat.size_le.mpr small
      have within : (smearBits type n steps).toNat < 2 ^ type.digits := by
        rw [ih]
        exact (Smear.smear_lt n.toNat steps).trans_le (Nat.pow_le_pow_right (by decide) narrow)
      have shifted := shiftRight_toNat within (1 <<< steps)
      rw [ih, Nat.shiftLeft_eq, Nat.one_mul] at shifted
      unfold smearBits at ih ⊢
      rw [List.range_succ, List.foldl_append, List.foldl_cons, List.foldl_nil, BitVec.toNat_or, ih]
      rw [smear, ← shifted, Nat.shiftLeft_eq, Nat.one_mul]
      rfl

theorem reach_eq (type : IntegerType) :
    2 ^ lg2 type.digits = if type.isSigned then type.width / 2 else type.width := by
  rw [lg2_eq_log2]
  cases type <;> decide

theorem reach_iff {value : Nat} (narrow : value.size ≤ type.digits) :
    Gapless value (2 ^ lg2 type.digits) ↔
      (type.isSigned = true → Gapless value (type.width / 2)) := by
  rw [reach_eq]
  rcases type.digits_lt_or_eq with ⟨signed, _wide⟩ | ⟨unsigned, wide⟩
  · rw [if_pos signed]
    exact ⟨fun gapless _signed => gapless, fun gapless => gapless signed⟩
  · rw [unsigned, if_neg Bool.false_ne_true]
    apply iff_of_true
    · exact Smear.gapless_of_size (wide ▸ narrow)
    · intro impossible
      cases impossible

theorem one_toNat (type : IntegerType) : (1 : BitVec type.width).toNat = 1 := by
  cases type <;> rfl

theorem predecessor_toNat {n : BitVec type.width} (positive : 1 ≤ n.toNat) :
    (n - 1).toNat = n.toNat - 1 := by
  rw [BitVec.toNat_sub_of_le, one_toNat]
  exact BitVec.le_def.mpr (one_toNat type ▸ positive)

/-- The result is one more than the bits of `n - 1` after the loop. -/
theorem nextPow2_value {n : BitVec type.width} (positive : 1 ≤ n.toNat)
    (room : 2 ^ (n.toNat - 1).size < 2 ^ type.digits) :
    type.value (nextPow2 type n) = (smear (n.toNat - 1) (lg2 type.digits) + 1 : Nat) := by
  have before := predecessor_toNat positive
  have below := Nat.lt_size_self (n.toNat - 1)
  have smeared : (smearBits type (n - 1) (lg2 type.digits)).toNat = _ :=
    smearBits_toNat (by omega) (lg2 type.digits)
  rw [before] at smeared
  have under := Smear.smear_lt (n.toNat - 1) (lg2 type.digits)
  have wide : 2 ^ type.digits ≤ 2 ^ type.width := by
    apply Nat.pow_le_pow_right (by decide)
    rcases type.digits_lt_or_eq with ⟨_signed, wide⟩ | ⟨_unsigned, wide⟩
    · omega
    · omega
  have result : (nextPow2 type n).toNat = smear (n.toNat - 1) (lg2 type.digits) + 1 := by
    unfold nextPow2
    rw [BitVec.toNat_add, smeared, one_toNat]
    exact Nat.mod_eq_of_lt (by omega)
  rw [type.value_eq_toNat (by omega), result]

/-- The result is the least power of two that is not less than `n` exactly if the type is unsigned,
or `n - 1` has no half of the width of zeros in a row below its highest set bit. -/
theorem nextPow2_isLeast_iff (type : IntegerType) (n : BitVec type.width)
    (positive : 1 ≤ type.value n)
    (representable : ∃ exponent : Nat, type.value n ≤ 2 ^ exponent ∧ 2 ^ exponent ≤ type.maximum) :
    IsLeast (PowersFrom (type.value n)) (type.value (nextPow2 type n)) ↔
      (type.isSigned = true → Gapless (n.toNat - 1) (type.width / 2)) := by
  obtain ⟨value, _small⟩ := IntegerType.toNat_of_value (by omega : 0 ≤ type.value n)
  rw [value] at positive representable ⊢
  have atLeast : 1 ≤ n.toNat := by exact_mod_cast positive
  obtain ⟨exponent, above, below⟩ := representable
  have fits : n.toNat ≤ 2 ^ exponent := by exact_mod_cast above
  have short : (n.toNat - 1).size ≤ exponent := Nat.size_le.mpr (by omega)
  have powers : 2 ^ (n.toNat - 1).size ≤ 2 ^ exponent := Nat.pow_le_pow_right (by decide) short
  have room : 2 ^ (n.toNat - 1).size < 2 ^ type.digits := by
    have within : (2 : Int) ^ exponent < 2 ^ type.digits := Int.lt_of_le_sub_one below
    exact powers.trans_lt (by exact_mod_cast within)
  have least := Smear.isLeast_powersFrom atLeast
  have narrow : (n.toNat - 1).size ≤ type.digits :=
    Nat.size_le.mpr ((Nat.lt_size_self _).trans room)
  rw [← reach_iff narrow, ← Smear.smear_eq_iff, nextPow2_value atLeast room]
  have power := Nat.two_pow_pos (n.toNat - 1).size
  constructor
  · intro isLeast
    have same : smear (n.toNat - 1) (lg2 type.digits) + 1 = 2 ^ (n.toNat - 1).size := by
      exact_mod_cast isLeast.unique least
    omega
  · intro filled
    have same : smear (n.toNat - 1) (lg2 type.digits) + 1 = 2 ^ (n.toNat - 1).size := by omega
    rw [same]
    exact_mod_cast least

theorem nextPow2_isLeast_five :
    IsLeast (PowersFrom (IntegerType.value .uint64 5))
        (IntegerType.value .uint64 (nextPow2 .uint64 5)) ↔
      (IntegerType.isSigned .uint64 = true →
        Gapless ((5 : BitVec (IntegerType.width .uint64)).toNat - 1)
          (IntegerType.width .uint64 / 2)) :=
  nextPow2_isLeast_iff .uint64 5 (by decide) ⟨3, by decide, by decide⟩

/-- The four steps for `int` reach over sixteen bits. -/
theorem nextPow2_beyondReach :
    1 ≤ IntegerType.value .int32 65537 ∧
      (∃ exponent : Nat, IntegerType.value .int32 65537 ≤ 2 ^ exponent ∧
        2 ^ exponent ≤ IntegerType.maximum .int32) ∧
      IntegerType.value .int32 (nextPow2 .int32 65537) = 131071 ∧
      ¬IsLeast (PowersFrom (IntegerType.value .int32 65537))
        (IntegerType.value .int32 (nextPow2 .int32 65537)) := by
  have result : IntegerType.value .int32 (nextPow2 .int32 65537) = 131071 := by
    unfold nextPow2
    rw [lg2_eq_log2]
    decide
  refine ⟨by decide, ⟨17, by decide, by decide⟩, result, ?_⟩
  rw [result]
  rintro ⟨⟨exponent, power, _atLeast⟩, _least⟩
  have odd : (131071 : Nat) = 2 ^ exponent := by exact_mod_cast power
  cases exponent with
  | zero => cases odd
  | succ exponent =>
      rw [Nat.pow_succ] at odd
      omega

end ChampSim.Msl

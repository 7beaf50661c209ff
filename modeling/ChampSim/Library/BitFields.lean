/-
Numbers as adjacent bit fields, the lowest field first, and the mask of the
lowest field of a word.
-/

import Mathlib.Algebra.BigOperators.Group.List.Basic
import Mathlib.Algebra.Order.Ring.Nat
import Mathlib.Data.BitVec

set_option autoImplicit false

namespace ChampSim.BitFields

def split : List Nat → Nat → List Nat
  | [], _ => []
  | width :: widths, number => number % 2 ^ width :: split widths (number / 2 ^ width)

def join : List Nat → List Nat → Nat
  | width :: widths, value :: values => value + 2 ^ width * join widths values
  | _, _ => 0

def Fits (widths values : List Nat) : Prop :=
  List.Forall₂ (fun width value => value < 2 ^ width) widths values

theorem split_fits (widths : List Nat) (number : Nat) : Fits widths (split widths number) := by
  induction widths generalizing number with
  | nil => exact .nil
  | cons width widths ih => exact .cons (Nat.mod_lt _ (Nat.two_pow_pos width)) (ih _)

theorem join_lt {widths values : List Nat} (fits : Fits widths values) :
    join widths values < 2 ^ widths.sum := by
  induction fits with
  | nil => exact Nat.one_pos
  | @cons width value widths values small _fits ih =>
      rw [List.sum_cons, Nat.pow_add]
      have scaled : 2 ^ width * (join widths values + 1) ≤ 2 ^ width * 2 ^ widths.sum :=
        Nat.mul_le_mul_left _ ih
      rw [Nat.mul_add, Nat.mul_one] at scaled
      unfold join
      omega

theorem split_join {widths values : List Nat} (fits : Fits widths values) :
    split widths (join widths values) = values := by
  induction fits with
  | nil => rfl
  | @cons width value widths values small _fits ih =>
      unfold split join
      rw [Nat.add_mul_mod_self_left, Nat.mod_eq_of_lt small,
        Nat.add_mul_div_left _ _ (Nat.two_pow_pos width), Nat.div_eq_of_lt small, Nat.zero_add, ih]

theorem join_split (widths : List Nat) (number : Nat) (small : number < 2 ^ widths.sum) :
    join widths (split widths number) = number := by
  induction widths generalizing number with
  | nil =>
      rw [List.sum_nil, Nat.pow_zero] at small
      exact (Nat.lt_one_iff.mp small).symm
  | cons width widths ih =>
      rw [List.sum_cons, Nat.pow_add] at small
      have smaller : number / 2 ^ width < 2 ^ widths.sum := Nat.div_lt_of_lt_mul small
      unfold split join
      rw [ih _ smaller]
      exact Nat.mod_add_div number (2 ^ width)

/-! ### Masks -/

theorem onesMask_toNat {width bits : Nat} (small : bits < width) :
    ((BitVec.ofNat width 1 <<< bits) - 1).toNat = 2 ^ bits - 1 := by
  have below : 2 ^ bits < 2 ^ width := Nat.pow_lt_pow_right (by decide) small
  have positive : 0 < 2 ^ bits := Nat.two_pow_pos bits
  have one : 1 % 2 ^ width = 1 := Nat.mod_eq_of_lt (by omega)
  rw [BitVec.toNat_sub, BitVec.toNat_shiftLeft, Nat.shiftLeft_eq]
  simp only [BitVec.toNat_ofNat, BitVec.ofNat_eq_ofNat, one, Nat.one_mul]
  rw [Nat.mod_eq_of_lt below]
  have wraps : 2 ^ width - 1 + 2 ^ bits = (2 ^ bits - 1) + 2 ^ width := by omega
  rw [wraps, Nat.add_mod_right, Nat.mod_eq_of_lt (by omega)]

theorem onesMask_getLsbD {width bits : Nat} (small : bits < width) (position : Nat) :
    ((BitVec.ofNat width 1 <<< bits) - 1).getLsbD position = decide (position < bits) := by
  rw [← BitVec.testBit_toNat, onesMask_toNat small, Nat.testBit_two_pow_sub_one]

end ChampSim.BitFields

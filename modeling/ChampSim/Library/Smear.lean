/-
Bits copied downwards: each step doubles the number of places that a set bit
reaches. The value becomes all ones exactly if no gap is wider than the reach.
-/

import Mathlib.Algebra.Order.Ring.Int
import Mathlib.Data.Nat.Size
import Mathlib.Order.Bounds.Basic

set_option autoImplicit false

namespace ChampSim.Smear

def smear (value : Nat) : Nat → Nat
  | 0 => value
  | steps + 1 => smear value steps ||| smear value steps >>> 2 ^ steps

theorem smear_testBit (value steps position : Nat) :
    (smear value steps).testBit position = true ↔
      ∃ higher, position ≤ higher ∧ higher < position + 2 ^ steps ∧
        value.testBit higher = true := by
  induction steps generalizing position with
  | zero =>
      constructor
      · intro set
        exact ⟨position, Nat.le_refl _, Nat.lt_succ_self _, set⟩
      · rintro ⟨higher, above, below, set⟩
        have same : higher = position := by omega
        exact same ▸ set
  | succ steps ih =>
      have double : 2 ^ (steps + 1) = 2 ^ steps + 2 ^ steps := by
        rw [Nat.pow_succ]
        omega
      unfold smear
      rw [Nat.testBit_or, Nat.testBit_shiftRight, Bool.or_eq_true, ih, ih, double]
      constructor
      · rintro (⟨higher, above, below, set⟩ | ⟨higher, above, below, set⟩)
        · exact ⟨higher, above, by omega, set⟩
        · exact ⟨higher, by omega, by omega, set⟩
      · rintro ⟨higher, above, below, set⟩
        rcases Nat.lt_or_ge higher (position + 2 ^ steps) with near | far
        · exact Or.inl ⟨higher, above, near, set⟩
        · exact Or.inr ⟨higher, by omega, by omega, set⟩

/-- Below the highest set bit, no so many places in a row are without one. -/
def Gapless (value window : Nat) : Prop :=
  ∀ low, low + window < value.size →
    ∃ place, low ≤ place ∧ place < low + window ∧ value.testBit place = true

theorem gapless_of_size {value window : Nat} (wide : value.size ≤ window) :
    Gapless value window := by
  intro low inside
  omega

theorem size_testBit {value : Nat} (positive : 0 < value.size) :
    value.testBit (value.size - 1) = true := by
  have least : 2 ^ (value.size - 1) ≤ value := Nat.lt_size.mp (by omega)
  have most : value < 2 ^ (value.size - 1 + 1) := by
    rw [Nat.sub_add_cancel positive]
    exact Nat.lt_size_self value
  rw [Nat.pow_succ] at most
  have one : value / 2 ^ (value.size - 1) = 1 := by
    apply Nat.div_eq_of_lt_le
    · omega
    · omega
  rw [Nat.testBit_eq_decide_div_mod_eq, one]
  rfl

/-- The steps fill all places below the highest set bit exactly if no gap is too wide. -/
theorem smear_eq_iff (value steps : Nat) :
    smear value steps = 2 ^ value.size - 1 ↔ Gapless value (2 ^ steps) := by
  constructor
  · intro filled low inside
    have reach := Nat.two_pow_pos steps
    have set : (smear value steps).testBit low = true := by
      rw [filled, Nat.testBit_two_pow_sub_one]
      exact decide_eq_true (by omega)
    exact (smear_testBit value steps low).mp set
  · intro gapless
    apply Nat.eq_of_testBit_eq
    intro position
    rw [Nat.testBit_two_pow_sub_one, Bool.eq_iff_iff, smear_testBit, decide_eq_true_eq]
    constructor
    · rintro ⟨higher, above, _below, set⟩
      have least := Nat.ge_two_pow_of_testBit set
      have inside := Nat.lt_size.mpr least
      omega
    · intro inside
      rcases Nat.lt_or_ge (position + 2 ^ steps) value.size with far | near
      · exact gapless position far
      · exact ⟨value.size - 1, by omega, by omega, size_testBit (by omega)⟩

theorem smear_lt (value steps : Nat) : smear value steps < 2 ^ value.size := by
  apply Nat.lt_pow_two_of_testBit
  intro position above
  rw [← Bool.not_eq_true, smear_testBit]
  rintro ⟨higher, atLeast, _below, set⟩
  have inside := Nat.lt_size.mpr (Nat.ge_two_pow_of_testBit set)
  omega

def PowersFrom (number : Int) : Set Int :=
  { power | ∃ exponent : Nat, power = 2 ^ exponent ∧ number ≤ power }

theorem isLeast_powersFrom {number : Nat} (positive : 1 ≤ number) :
    IsLeast (PowersFrom number) (2 ^ (number - 1).size) := by
  constructor
  · refine ⟨_, rfl, ?_⟩
    have below := Nat.lt_size_self (number - 1)
    have fits : number ≤ 2 ^ (number - 1).size := by omega
    exact_mod_cast fits
  · rintro power ⟨exponent, rfl, atLeast⟩
    have fits : number ≤ 2 ^ exponent := by exact_mod_cast atLeast
    have short : (number - 1).size ≤ exponent := Nat.size_le.mpr (by omega)
    exact_mod_cast Nat.pow_le_pow_right (by decide) short

end ChampSim.Smear

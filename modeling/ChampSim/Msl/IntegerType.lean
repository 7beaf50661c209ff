/-
The built-in integer types of the program, with the range of each, the
conversions between them and the arithmetic that is done in a type.

A result outside of the range of a signed type is undefined. A conversion to a
signed type keeps the bits.
-/

import Mathlib.Data.BitVec
import Mathlib.Algebra.Order.Ring.Int

set_option autoImplicit false

namespace ChampSim.Msl

inductive IntegerType where
  | int8
  | int16
  | int32
  | int64
  | uint8
  | uint16
  | uint32
  | uint64
deriving DecidableEq, Repr

namespace IntegerType

def width : IntegerType → Nat
  | .int8 | .uint8 => 8
  | .int16 | .uint16 => 16
  | .int32 | .uint32 => 32
  | .int64 | .uint64 => 64

def isSigned : IntegerType → Bool
  | .int8 | .int16 | .int32 | .int64 => true
  | .uint8 | .uint16 | .uint32 | .uint64 => false

/-- `std::numeric_limits<T>::digits`. -/
def digits (type : IntegerType) : Nat := if type.isSigned then type.width - 1 else type.width

def minimum (type : IntegerType) : Int := if type.isSigned then -2 ^ type.digits else 0

def maximum (type : IntegerType) : Int := 2 ^ type.digits - 1

def value (type : IntegerType) (bits : BitVec type.width) : Int :=
  if type.isSigned then bits.toInt else bits.toNat

def InRange (type : IntegerType) (number : Int) : Prop :=
  type.minimum ≤ number ∧ number ≤ type.maximum

instance (type : IntegerType) (number : Int) : Decidable (type.InRange number) :=
  inferInstanceAs (Decidable (_ ∧ _))

theorem digits_lt_or_eq (type : IntegerType) :
    (type.isSigned = true ∧ type.digits + 1 = type.width) ∨
      (type.isSigned = false ∧ type.digits = type.width) := by
  cases type <;> decide

theorem value_inRange (type : IntegerType) (bits : BitVec type.width) :
    type.InRange (type.value bits) := by
  unfold InRange minimum maximum value
  rcases type.digits_lt_or_eq with ⟨signed, wide⟩ | ⟨unsigned, wide⟩
  · have least := bits.le_toInt
    have most := bits.toInt_lt
    have half : (2 : Int) ^ (type.width - 1) = 2 ^ type.digits := by
      rw [← wide, Nat.add_sub_cancel]
    rw [half] at least most
    rw [if_pos signed, if_pos signed]
    omega
  · have most : (bits.toNat : Int) < 2 ^ type.width := by exact_mod_cast bits.isLt
    rw [unsigned, wide, if_neg Bool.false_ne_true, if_neg Bool.false_ne_true]
    omega

/-- Bits that stand for a number that is not negative stand for it in every type. -/
theorem value_eq_toNat (type : IntegerType) {bits : BitVec type.width}
    (small : bits.toNat < 2 ^ type.digits) : type.value bits = bits.toNat := by
  unfold value
  rcases type.digits_lt_or_eq with ⟨signed, wide⟩ | ⟨unsigned, _wide⟩
  · rw [if_pos signed]
    have double : 2 ^ type.width = 2 ^ type.digits * 2 := by
      rw [← wide, Nat.pow_succ]
    apply BitVec.toInt_eq_toNat_of_lt
    omega
  · rw [unsigned]
    rfl

theorem toNat_of_value {type : IntegerType} {bits : BitVec type.width}
    (positive : 0 ≤ type.value bits) :
    type.value bits = bits.toNat ∧ bits.toNat < 2 ^ type.digits := by
  have most := (type.value_inRange bits).2
  unfold maximum at most
  unfold value at positive most ⊢
  rcases type.digits_lt_or_eq with ⟨signed, _wide⟩ | ⟨unsigned, wide⟩
  · rw [if_pos signed] at positive most ⊢
    have same : bits.toInt = bits.toNat := by
      rw [BitVec.toInt_eq_toNat_cond] at positive ⊢
      split
      · rfl
      · rename_i large
        rw [if_neg large] at positive
        have below := bits.isLt
        omega
    rw [same] at most
    refine ⟨same, ?_⟩
    have below : (bits.toNat : Int) < 2 ^ type.digits := by omega
    exact_mod_cast below
  · rw [unsigned, wide]
    exact ⟨rfl, bits.isLt⟩

theorem value_narrow {type : IntegerType} (narrow : type.width ≤ 32) (bits : BitVec type.width) :
    -2 ^ 31 ≤ type.value bits ∧ type.value bits < 2 ^ 32 := by
  obtain ⟨least, most⟩ := type.value_inRange bits
  have range : -2 ^ 31 ≤ type.minimum ∧ type.maximum < 2 ^ 32 := by
    cases type with
    | int64 => exact absurd narrow (by decide)
    | uint64 => exact absurd narrow (by decide)
    | _ => decide
  exact ⟨range.1.trans least, most.trans_lt range.2⟩

/-! ### Conversions and arithmetic -/

def convert (type : IntegerType) (number : Int) : Int :=
  type.value (BitVec.ofInt type.width number)

/-- The type to which `long long` and another type are converted for an operator. -/
def withLongLong : IntegerType → IntegerType
  | .uint64 => .uint64
  | _ => .int64

/-- The result of an operator in the type, if it is defined. -/
def arithmetic (type : IntegerType) (exactly : Int) : Option Int :=
  if type.isSigned then if type.InRange exactly then some exactly else none
  else some (type.convert exactly)

theorem int64_inRange_iff (number : Int) :
    InRange .int64 number ↔ -2 ^ 63 ≤ number ∧ number ≤ 2 ^ 63 - 1 := Iff.rfl

/-- A conversion to `long long` takes the residue that is nearest to 0. -/
theorem int64_convert (number : Int) :
    convert .int64 number = (number + 2 ^ 63) % 2 ^ 64 - 2 ^ 63 := by
  change (BitVec.ofInt 64 number).toInt = _
  rw [BitVec.toInt_ofInt]
  unfold Int.bmod
  simp only
  omega

theorem uint64_convert (number : Int) : convert .uint64 number = number % 2 ^ 64 := by
  change ((BitVec.ofInt 64 number).toNat : Int) = _
  rw [BitVec.toNat_ofInt]
  omega

theorem int64_convert_of_inRange {number : Int} (inRange : InRange .int64 number) :
    convert .int64 number = number := by
  obtain ⟨least, most⟩ := (int64_inRange_iff number).mp inRange
  rw [int64_convert]
  omega

theorem int64_convert_of_emod {first second : Int} (same : first % 2 ^ 64 = second % 2 ^ 64) :
    convert .int64 first = convert .int64 second := by
  rw [int64_convert, int64_convert]
  omega

theorem int64_convert_uint64 (number : Int) :
    convert .int64 (convert .uint64 number) = convert .int64 number := by
  apply int64_convert_of_emod
  rw [uint64_convert, Int.emod_emod_of_dvd number (Int.dvd_refl _)]

theorem range_fits {type : IntegerType} (other : type ≠ .uint64) :
    type.withLongLong = .int64 ∧ minimum .int64 ≤ type.minimum ∧
      type.maximum ≤ maximum .int64 := by
  cases type with
  | uint64 => exact absurd rfl other
  | _ => decide

/-- Only `unsigned long long` does not fit `long long`. -/
theorem value_fits {type : IntegerType} (other : type ≠ .uint64) (bits : BitVec type.width) :
    InRange .int64 (type.value bits) := by
  obtain ⟨least, most⟩ := type.value_inRange bits
  obtain ⟨_common, lower, upper⟩ := range_fits other
  exact ⟨lower.trans least, most.trans upper⟩

end IntegerType

end ChampSim.Msl

/-
Addresses and the slices of them that the simulated machine compares.
-/

import Mathlib.Data.BitVec

set_option autoImplicit false

namespace ChampSim

/-- A full address: 64 bits, `address_slice<static_extent<64_b,0_b>>`. -/
abbrev Address := BitVec 64

namespace Address

/-- The value of the slice that drops the `bits` lowest bits. -/
def sliceUpper (address : Address) (bits : Nat) : BitVec 64 := address >>> bits

/-- The slice that drops the `bits` lowest bits, as a full address again. -/
def alignDown (address : Address) (bits : Nat) : Address := (address >>> bits) <<< bits

/-- The value of the slice of `size` bits from the bit `low` upwards. -/
def slice (address : Address) (low size : Nat) : Nat := (address >>> low).toNat % 2 ^ size

/-- `splice` of what `upper` has from the bit `bits` upwards with the bits of
`lower` below. -/
def splice (upper lower : Address) (bits : Nat) : Address :=
  alignDown upper bits ||| BitVec.ofNat 64 (slice lower 0 bits)

/-- `splice_bits`: the `size` bits from the bit `low` upwards become those of a value. -/
def spliceBits (address : Address) (low size value : Nat) : Address :=
  (address &&& ~~~(BitVec.ofNat 64 ((2 ^ size - 1) <<< low))) |||
    BitVec.ofNat 64 ((value % 2 ^ size) <<< low)

theorem splice_toNat {upper lower : Address} {index bits : Nat}
    (aligned : upper.toNat = index * 2 ^ bits) (small : lower.toNat < 2 ^ bits) :
    (splice upper lower bits).toNat = upper.toNat + lower.toNat := by
  have kept : alignDown upper bits = upper := by
    apply BitVec.eq_of_toNat_eq
    unfold alignDown
    rw [BitVec.toNat_shiftLeft, BitVec.toNat_ushiftRight, Nat.shiftRight_eq_div_pow,
      Nat.shiftLeft_eq, aligned, Nat.mul_div_cancel _ (Nat.two_pow_pos bits), ← aligned]
    exact Nat.mod_eq_of_lt upper.isLt
  unfold splice slice
  rw [kept, BitVec.toNat_or, BitVec.toNat_ofNat, BitVec.toNat_ushiftRight, Nat.shiftRight_zero,
    Nat.mod_eq_of_lt small, Nat.mod_eq_of_lt lower.isLt, aligned, ← Nat.shiftLeft_eq]
  exact (Nat.shiftLeft_add_eq_or_of_lt small index).symm

theorem spliceBits_toNat {address : Address} {index low size value : Nat}
    (aligned : address.toNat = index * 2 ^ (low + size)) (within : low + size ≤ 64)
    (small : value < 2 ^ size) :
    (spliceBits address low size value).toNat = address.toNat + value * 2 ^ low := by
  have kept : address &&& ~~~(BitVec.ofNat 64 ((2 ^ size - 1) <<< low)) = address := by
    apply BitVec.eq_of_getLsbD_eq
    intro place inside
    rw [BitVec.getLsbD_and, BitVec.getLsbD_not, BitVec.getLsbD_ofNat, Nat.testBit_shiftLeft,
      Nat.testBit_two_pow_sub_one, ← BitVec.testBit_toNat, aligned, Nat.testBit_mul_two_pow]
    by_cases above : low + size ≤ place
    · have outside : ¬ place - low < size := by omega
      simp [inside, outside]
    · simp [above]
  have shifted : value * 2 ^ low < 2 ^ (low + size) := by
    rw [Nat.pow_add, Nat.mul_comm]
    exact Nat.mul_lt_mul_of_pos_left small (Nat.two_pow_pos low)
  have fits : value * 2 ^ low < 2 ^ 64 :=
    shifted.trans_le (Nat.pow_le_pow_right (by decide) within)
  unfold spliceBits
  rw [kept, BitVec.toNat_or, BitVec.toNat_ofNat, Nat.mod_eq_of_lt small, Nat.shiftLeft_eq,
    Nat.mod_eq_of_lt fits, aligned, ← Nat.shiftLeft_eq]
  exact (Nat.shiftLeft_add_eq_or_of_lt shifted index).symm
end Address

end ChampSim

/-
Shift registers as words: the newest bit at position 0, and how far back a
constant input reaches.
-/

import Mathlib.Data.BitVec

set_option autoImplicit false

namespace ChampSim.ShiftRegister

variable {width : Nat}

/-- `std::bitset::set(position, bit)`. -/
def writeBit (word : BitVec width) (position : Nat) (bit : Bool) : BitVec width :=
  if bit then word ||| (BitVec.ofNat width 1 <<< position) else word &&& ~~~(BitVec.ofNat width 1 <<< position)

def push (word : BitVec width) (bit : Bool) : BitVec width :=
  writeBit (word <<< 1) 0 bit

theorem getLsbD_push_zero (word : BitVec width) (bit : Bool) (nonempty : 0 < width) :
    (push word bit).getLsbD 0 = bit := by
  unfold push writeBit
  cases bit <;> simp [nonempty]

theorem getLsbD_push_succ (word : BitVec width) (bit : Bool) (position : Nat)
    (within : position + 1 < width) :
    (push word bit).getLsbD (position + 1) = word.getLsbD position := by
  have inside : position < width := by omega
  rw [BitVec.getLsbD_eq_getElem inside]
  unfold push writeBit
  cases bit <;> simp [within]

theorem push_eq_iff (first second : BitVec width) (bit : Bool) :
    push first bit = push second bit ↔
      ∀ position, position + 1 < width → first.getLsbD position = second.getLsbD position := by
  constructor
  · intro same position within
    rw [← getLsbD_push_succ first bit position within, same,
      getLsbD_push_succ second bit position within]
  · intro agree
    apply BitVec.eq_of_getLsbD_eq
    intro position within
    cases position with
    | zero => rw [getLsbD_push_zero first bit within, getLsbD_push_zero second bit within]
    | succ earlier =>
        rw [getLsbD_push_succ first bit earlier within, getLsbD_push_succ second bit earlier within]
        exact agree earlier within

/-- The newest `count` bits all equal `bit`. -/
def Recent (word : BitVec width) (count : Nat) (bit : Bool) : Prop :=
  ∀ position, position < count → position < width → word.getLsbD position = bit

theorem recent_zero (word : BitVec width) (bit : Bool) : Recent word 0 bit := by
  intro position impossible
  omega

theorem Recent.push {word : BitVec width} {count : Nat} {bit : Bool}
    (recent : Recent word count bit) : Recent (push word bit) (count + 1) bit := by
  intro position newer within
  cases position with
  | zero => exact getLsbD_push_zero word bit within
  | succ earlier =>
      rw [getLsbD_push_succ word bit earlier within]
      exact recent earlier (by omega) (by omega)

end ChampSim.ShiftRegister

/-
The saturating counter of inc/msl/fwcounter.h.

The wrapped value carries its range. The raw constructor of the source stores
its argument unchecked; here a caller of it owes the two bounds, and every
assignment goes through `clamp` as in the source. The operands here are those
for which the arithmetic is exact before it is clamped.
-/

import Mathlib.Tactic.Ring
import Mathlib.Order.Defs.LinearOrder
import Mathlib.Algebra.Order.Ring.Int

set_option autoImplicit false

namespace ChampSim.Msl

@[ext] structure BaseFwcounter (maxval minval : Int) where
  value : Int
  atLeast : minval ≤ value
  atMost : value ≤ maxval
deriving DecidableEq, Repr

namespace BaseFwcounter

variable {maxval minval : Int}

/-- `std::clamp(val, MINVAL, MAXVAL)`. -/
def clamp (maxval minval val : Int) : Int :=
  if val < minval then minval else if maxval < val then maxval else val

theorem clamp_range (val : Int) (ordered : minval ≤ maxval) :
    minval ≤ clamp maxval minval val ∧ clamp maxval minval val ≤ maxval := by
  unfold clamp
  split
  · exact ⟨Int.le_refl _, ordered⟩
  · split
    · exact ⟨ordered, Int.le_refl _⟩
    · omega

def maximum (_counter : BaseFwcounter maxval minval) : Int := maxval

/-- `operator=`. -/
def assign (counter : BaseFwcounter maxval minval) (rhs : Int) : BaseFwcounter maxval minval where
  value := clamp maxval minval rhs
  atLeast := (clamp_range rhs (counter.atLeast.trans counter.atMost)).1
  atMost := (clamp_range rhs (counter.atLeast.trans counter.atMost)).2

/-- `operator+=`. -/
def addAssign (counter : BaseFwcounter maxval minval) (rhs : Int) : BaseFwcounter maxval minval :=
  counter.assign (counter.value + rhs)

/-- `operator-=`. -/
def subAssign (counter : BaseFwcounter maxval minval) (rhs : Int) : BaseFwcounter maxval minval :=
  counter.assign (counter.value - rhs)

@[simp] theorem assign_value (counter : BaseFwcounter maxval minval) (rhs : Int) :
    (counter.assign rhs).value = clamp maxval minval rhs := rfl

theorem assign_value_of_range (counter : BaseFwcounter maxval minval) (rhs : Int)
    (atLeast : minval ≤ rhs) (atMost : rhs ≤ maxval) : (counter.assign rhs).value = rhs := by
  rw [assign_value, clamp, if_neg (by omega), if_neg (by omega)]

@[simp] theorem addAssign_one_value (counter : BaseFwcounter maxval minval) :
    (counter.addAssign 1).value = min (counter.value + 1) maxval := by
  have atLeast := counter.atLeast
  rw [addAssign, assign_value, clamp]
  split
  · omega
  · split <;> omega

@[simp] theorem subAssign_one_value (counter : BaseFwcounter maxval minval) :
    (counter.subAssign 1).value = max (counter.value - 1) minval := by
  have atMost := counter.atMost
  rw [subAssign, assign_value, clamp]
  split
  · omega
  · split <;> omega

theorem addAssign_neg_one (counter : BaseFwcounter maxval minval) :
    counter.addAssign (-1) = counter.subAssign 1 := rfl

/-- One training step towards an outcome: at most one, never away from it. -/
def MovesToward (up : Bool) (before after : BaseFwcounter maxval minval) : Prop :=
  after.value = before.value ∨ after.value = before.value + (if up then 1 else -1)

theorem movesToward_refl (up : Bool) (counter : BaseFwcounter maxval minval) :
    MovesToward up counter counter := Or.inl rfl

theorem addAssign_movesToward (up : Bool) (counter : BaseFwcounter maxval minval) :
    MovesToward up counter (counter.addAssign (if up then 1 else -1)) := by
  have atLeast := counter.atLeast
  have atMost := counter.atMost
  unfold MovesToward
  cases up with
  | true =>
      simp only [if_true, addAssign_one_value]
      omega
  | false =>
      simp only [Bool.false_eq_true, if_false, addAssign_neg_one, subAssign_one_value]
      omega

end BaseFwcounter

/-- The unsigned specialization: `WIDTH` bits, from 0 to `(1 << WIDTH) - 1`. -/
abbrev Fwcounter (width : Nat) := BaseFwcounter (2 ^ width - 1) 0

theorem fwcounter_range (width : Nat) : (0 : Int) ≤ 2 ^ width - 1 := by
  have positive : (0 : Int) < 2 ^ width := Int.pow_pos (by decide)
  omega

/-- The value-initialised counter of the default constructor. -/
def Fwcounter.zero (width : Nat) : Fwcounter width :=
  ⟨0, Int.le_refl 0, fwcounter_range width⟩

instance (width : Nat) : Inhabited (Fwcounter width) := ⟨Fwcounter.zero width⟩

/-- The signed specialization: `WIDTH` bits in two's complement. -/
abbrev Sfwcounter (width : Nat) :=
  BaseFwcounter (2 ^ (width - 1) - 1) (-(2 ^ (width - 1)))

def Sfwcounter.zero (width : Nat) : Sfwcounter width where
  value := 0
  atLeast := by
    have positive : (0 : Int) < 2 ^ (width - 1) := Int.pow_pos (by decide)
    omega
  atMost := fwcounter_range (width - 1)

instance (width : Nat) : Inhabited (Sfwcounter width) := ⟨Sfwcounter.zero width⟩

end ChampSim.Msl

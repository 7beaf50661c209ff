/-
What the re-reference policies share: one value for each block, in one vector
for all sets, behind `at()`.

A fault is the `std::out_of_range` of `at()`, or what the source leaves
undefined: an element outside a vector, or the end of an empty range.
-/

import ChampSim.Library.CArray
import ChampSim.Library.Outcome

set_option autoImplicit false

namespace ChampSim.Replacement

open Outcome

inductive Fault where
  | outOfRange
  | undefined
deriving DecidableEq, Repr

abbrev RrpvTable (numSet numWay : Nat) (Value : Type) := CArray (numSet * numWay) Value

namespace RrpvTable

variable {numSet numWay : Nat} {Value : Type}

/-- An assignment through `get_rrpv`, which only checks the element among all. -/
def assign (table : RrpvTable numSet numWay Value) (set way : Nat) (value : Value) :
    Except Fault (RrpvTable numSet numWay Value) :=
  if set * numWay + way < numSet * numWay then
    .ok (table.set (set * numWay + way : Nat) value)
  else .error .outOfRange

theorem assign_ok {table next : RrpvTable numSet numWay Value} {set way : Nat} {value : Value}
    (ran : assign table set way value = .ok next) :
    set * numWay + way < numSet * numWay ∧ next = table.set (set * numWay + way : Nat) value := by
  unfold assign at ran
  split at ran
  · rename_i within
    exact ⟨within, (Except.ok.inj ran).symm⟩
  · cases ran

theorem set_lt {set way : Nat} (within : set * numWay + way < numSet * numWay) : set < numSet :=
  Nat.lt_of_mul_lt_mul_right ((Nat.le_add_right (set * numWay) way).trans_lt within)

theorem way_within {set way : Nat} (isSet : set < numSet) (isWay : way < numWay) :
    set * numWay + way < numSet * numWay := by
  have next := Nat.mul_le_mul_right numWay (Nat.succ_le_of_lt isSet)
  rw [Nat.succ_mul] at next
  omega

end RrpvTable

end ChampSim.Replacement

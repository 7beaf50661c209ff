/-
Bandwidths, which count down and throw when more than they hold is consumed,
and the spans of a queue that they limit.
-/

import ChampSim.Library.Outcome
import ChampSim.Library.Queue

set_option autoImplicit false

namespace ChampSim

/-- Why an operation does not return: `std::range_error` of a bandwidth, or
anything else (an assertion, a null pointer). -/
inductive Fault where
  | rangeError
  | stopped
deriving DecidableEq, Repr

structure Bandwidth where
  value : Int
  maximum : Int
deriving DecidableEq, Repr

namespace Bandwidth

variable {Item Other : Type}

def ofMaximum (maximum : Int) : Bandwidth := { value := maximum, maximum := maximum }

def amountRemaining (bandwidth : Bandwidth) : Int := bandwidth.value

def consume (bandwidth : Bandwidth) (delta : Int) : Except Fault Bandwidth :=
  if bandwidth.value - delta < 0 then .error .rangeError
  else .ok { bandwidth with value := bandwidth.value - delta }

def getSpan (items : List Item) (sz : Bandwidth) : Except Fault (List Item) :=
  if sz.amountRemaining < 0 then .error .stopped
  else .ok (items.take (min (items.length : Int) sz.amountRemaining).toNat)

def getSpanP (items : List Item) (sz : Bandwidth) (func : Item → Bool) :
    Except Fault (List Item) :=
  (getSpan items sz).map (List.takeWhile func)

/-- What goes to the output, what stays in the queue, and how many items were moved. -/
def transformWhileN (queue : List Item) (sz : Bandwidth) (testFunc : Item → Bool)
    (transformFunc : Item → Other) : Except Fault (List Other × List Item × Int) :=
  (getSpanP queue sz testFunc).map fun span =>
    (span.map transformFunc, queue.drop span.length, span.length)

/-! ### Bandwidths that hold a natural number -/

variable {bandwidth : Bandwidth} {room : Nat}

theorem consume_within {delta : Nat} (holds : bandwidth.value = room) (within : delta ≤ room) :
    ∃ left, bandwidth.consume delta = .ok left ∧ left.value = ((room - delta : Nat) : Int) := by
  have enough : ¬bandwidth.value - (delta : Int) < 0 := by omega
  refine ⟨{ bandwidth with value := bandwidth.value - delta }, if_neg enough, ?_⟩
  change bandwidth.value - (delta : Int) = _
  omega

theorem getSpanP_eq (holds : bandwidth.value = room) (items : List Item) (func : Item → Bool) :
    getSpanP items bandwidth func = .ok (Queue.span room func items) := by
  have positive : ¬bandwidth.amountRemaining < 0 := by
    unfold amountRemaining
    omega
  have distance : (min (items.length : Int) bandwidth.amountRemaining).toNat =
      min items.length room := by
    unfold amountRemaining
    omega
  unfold getSpanP getSpan
  rw [if_neg positive, distance, Nat.min_comm, ← List.take_eq_take_min]
  rfl

theorem transformWhileN_eq (holds : bandwidth.value = room) (queue : List Item)
    (testFunc : Item → Bool) (transformFunc : Item → Other) :
    transformWhileN queue bandwidth testFunc transformFunc =
      .ok ((Queue.span room testFunc queue).map transformFunc, Queue.beyond room testFunc queue,
        ((Queue.span room testFunc queue).length : Int)) := by
  unfold transformWhileN
  rw [getSpanP_eq holds]
  rfl

end Bandwidth

end ChampSim

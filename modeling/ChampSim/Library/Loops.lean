/-
Loops whose passes go on with a new state or stop with a result, run for as many
passes as a bound allows.
-/

import Mathlib.Data.Sum.Basic

set_option autoImplicit false

namespace ChampSim.Loops

variable {State Result : Type}

/-- The result of the loop, unless it needs more passes than there are. -/
def run (pass : State → State ⊕ Result) : Nat → State → Option Result
  | 0, _ => none
  | passes + 1, state =>
      match pass state with
      | .inl next => run pass passes next
      | .inr result => some result

variable {pass : State → State ⊕ Result}

theorem run_next {state next : State} (goesOn : pass state = .inl next) (passes : Nat) :
    run pass (passes + 1) state = run pass passes next := by
  rw [run, goesOn]

theorem run_done {state : State} {result : Result} (stops : pass state = .inr result)
    (passes : Nat) : run pass (passes + 1) state = some result := by
  rw [run, stops]

def Ends (pass : State → State ⊕ Result) (Post : Result → Prop) (state : State) : Prop :=
  ∃ passes result, run pass passes state = some result ∧ Post result

variable {Post : Result → Prop}

theorem ends_next {state next : State} (goesOn : pass state = .inl next) :
    Ends pass Post state ↔ Ends pass Post next := by
  constructor
  · rintro ⟨passes, result, ran, post⟩
    cases passes with
    | zero => cases ran
    | succ passes =>
        rw [run_next goesOn] at ran
        exact ⟨passes, result, ran, post⟩
  · rintro ⟨passes, result, ran, post⟩
    exact ⟨passes + 1, result, (run_next goesOn passes).trans ran, post⟩

theorem ends_done {state : State} {result : Result} (stops : pass state = .inr result) :
    Ends pass Post state ↔ Post result := by
  constructor
  · rintro ⟨passes, other, ran, post⟩
    cases passes with
    | zero => cases ran
    | succ passes =>
        rw [run_done stops] at ran
        exact Option.some.inj ran ▸ post
  · intro post
    exact ⟨1, result, run_done stops 0, post⟩

/-- Passes that stay among some states, or stop with another result, never end as wanted. -/
theorem not_ends_of_closed {Stays : State → Prop}
    (closed : ∀ state, Stays state → (∃ next, pass state = .inl next ∧ Stays next) ∨
      ∃ result, pass state = .inr result ∧ ¬ Post result) (state : State)
    (stays : Stays state) : ¬ Ends pass Post state := by
  rintro ⟨passes, result, ran, post⟩
  induction passes generalizing state with
  | zero => cases ran
  | succ passes ih =>
      rcases closed state stays with ⟨next, goesOn, nextStays⟩ | ⟨other, stops, unwanted⟩
      · rw [run_next goesOn] at ran
        exact ih next nextStays ran
      · rw [run_done stops] at ran
        exact unwanted (Option.some.inj ran ▸ post)

/-- The states that the loop passes through from its first one. -/
inductive Visits (pass : State → State ⊕ Result) (first : State) : State → Prop
  | first : Visits pass first first
  | next {state next : State} :
      Visits pass first state → pass state = .inl next → Visits pass first next

theorem Visits.keeps {first state : State} (visits : Visits pass first state)
    (Invariant : State → Prop) (holds : Invariant first)
    (kept : ∀ before next, Invariant before → pass before = .inl next → Invariant next) :
    Invariant state := by
  induction visits with
  | first => exact holds
  | next _before goesOn ih => exact kept _ _ ih goesOn

theorem run_of_measure (Invariant : State → Prop) (bound : State → Nat)
    (goesOn : ∀ state next, Invariant state → pass state = .inl next →
      Invariant next ∧ bound next < bound state)
    (stops : ∀ state result, Invariant state → pass state = .inr result → Post result)
    (passes : Nat) (state : State) (holds : Invariant state) (enough : bound state < passes) :
    ∃ result, run pass passes state = some result ∧ Post result := by
  induction passes generalizing state with
  | zero => exact absurd enough (Nat.not_lt_zero _)
  | succ passes ih =>
      cases passed : pass state with
      | inl next =>
          obtain ⟨nextHolds, less⟩ := goesOn state next holds passed
          rw [run_next passed]
          exact ih next nextHolds (Nat.lt_of_lt_of_le less (Nat.lt_succ_iff.mp enough))
      | inr result => exact ⟨result, run_done passed passes, stops state result holds passed⟩

end ChampSim.Loops

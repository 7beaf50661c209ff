/-
Partial labelled machines and their finite runs.

A machine rejects a label by returning `none`. Runs are computed, so that a
finite history can be replayed, and the rules used everywhere else are proved
once: an invariant of the step is an invariant of the run, a projection that
commutes with the step commutes with the run, and a recorded machine runs like
the machine it records.
-/

import Mathlib.Data.Option.Basic

set_option autoImplicit false

namespace ChampSim.Transition

structure Machine (State Label : Type) where
  step : State → Label → Option State

theorem history_concat {Entry : Type} {history : List Entry} {latest entry : Entry} {index : Nat}
    (present : (history ++ [latest])[index]? = some entry) :
    (index < history.length ∧ history[index]? = some entry) ∨
      (index = history.length ∧ entry = latest) := by
  have within := (List.getElem?_eq_some_iff.mp present).1
  rw [List.length_append, List.length_singleton] at within
  rcases Nat.lt_or_eq_of_le (Nat.le_of_lt_succ within) with older | isLatest
  · rw [List.getElem?_append_left older] at present
    exact Or.inl ⟨older, present⟩
  · rw [isLatest, List.getElem?_concat_length, Option.some.injEq] at present
    exact Or.inr ⟨isLatest, present.symm⟩

theorem history_earlier {Entry : Type} {history : List Entry} {entry : Entry} {index : Nat}
    (present : history[index]? = some entry) (latest : Entry) :
    (history ++ [latest])[index]? = some entry := by
  rw [List.getElem?_append_left (List.getElem?_eq_some_iff.mp present).1]
  exact present

namespace Machine

variable {State Other Label Note : Type}

def run (machine : Machine State Label) (start : State) : List Label → Option State
  | [] => some start
  | label :: rest => (machine.step start label).bind (fun next => machine.run next rest)

@[simp] theorem run_cons (machine : Machine State Label) (start : State)
    (label : Label) (rest : List Label) :
    machine.run start (label :: rest) =
      (machine.step start label).bind (fun next => machine.run next rest) := rfl

theorem run_append (machine : Machine State Label) (start : State)
    (labels others : List Label) :
    machine.run start (labels ++ others) =
      (machine.run start labels).bind (fun middle => machine.run middle others) := by
  induction labels generalizing start with
  | nil => rfl
  | cons label rest ih =>
      rw [List.cons_append, run_cons, run_cons, Option.bind_assoc]
      exact congrArg _ (funext ih)

theorem run_concat (machine : Machine State Label) (start finish : State)
    (labels : List Label) (label : Label) :
    machine.run start (labels ++ [label]) = some finish ↔
      ∃ middle, machine.run start labels = some middle ∧ machine.step middle label = some finish := by
  rw [run_append, Option.bind_eq_some_iff]
  apply exists_congr
  intro middle
  rw [run_cons, Option.bind_eq_some_iff]
  constructor
  · rintro ⟨ran, last, stepped, same⟩
    cases same
    exact ⟨ran, stepped⟩
  · rintro ⟨ran, stepped⟩
    exact ⟨ran, finish, stepped, rfl⟩

theorem run_invariant (machine : Machine State Label) (Invariant : State → Prop)
    (preserved : ∀ state label next, Invariant state →
      machine.step state label = some next → Invariant next)
    (labels : List Label) (start finish : State)
    (initial : Invariant start) (ran : machine.run start labels = some finish) :
    Invariant finish := by
  induction labels generalizing start with
  | nil =>
      cases ran
      exact initial
  | cons label rest ih =>
      obtain ⟨next, stepped, remaining⟩ := Option.bind_eq_some_iff.mp ran
      exact ih next (preserved start label next initial stepped) remaining

/-- A projection that commutes with every step commutes with every run. -/
theorem run_map (left : Machine State Label) (right : Machine Other Label)
    (project : State → Other)
    (commutes : ∀ state label,
      (left.step state label).map project = right.step (project state) label)
    (labels : List Label) (start : State) :
    (left.run start labels).map project = right.run (project start) labels := by
  induction labels generalizing start with
  | nil => rfl
  | cons label rest ih =>
      rw [run_cons, run_cons, ← commutes]
      cases left.step start label with
      | none => rfl
      | some next => exact ih next

/-- The same machine beside a note that sees each state before its step. -/
def record (machine : Machine State Label) (note : State → Label → Note → Note) :
    Machine (State × Note) Label where
  step recorded label :=
    (machine.step recorded.1 label).map (fun next => (next, note recorded.1 label recorded.2))

theorem record_step_iff (machine : Machine State Label) (note : State → Label → Note → Note)
    (recorded next : State × Note) (label : Label) :
    (machine.record note).step recorded label = some next ↔
      machine.step recorded.1 label = some next.1 ∧ note recorded.1 label recorded.2 = next.2 := by
  constructor
  · intro stepped
    obtain ⟨reached, moved, same⟩ := Option.map_eq_some_iff.mp stepped
    subst same
    exact ⟨moved, rfl⟩
  · rintro ⟨moved, noted⟩
    exact Option.map_eq_some_iff.mpr ⟨next.1, moved, by rw [noted]⟩

theorem record_run (machine : Machine State Label) (note : State → Label → Note → Note)
    (labels : List Label) (start : State) (notes : Note) :
    ((machine.record note).run (start, notes) labels).map Prod.fst =
      machine.run start labels := by
  apply run_map (machine.record note) machine Prod.fst
  intro recorded label
  change ((machine.step recorded.1 label).map _).map Prod.fst = machine.step recorded.1 label
  rw [Option.map_map]
  exact Option.map_id'

theorem exists_recorded_run (machine : Machine State Label) (note : State → Label → Note → Note)
    (labels : List Label) (start finish : State) (notes : Note)
    (ran : machine.run start labels = some finish) :
    ∃ noted, (machine.record note).run (start, notes) labels = some (finish, noted) := by
  rw [← machine.record_run note labels start notes] at ran
  obtain ⟨⟨reached, noted⟩, recorded, same⟩ := Option.map_eq_some_iff.mp ran
  subst same
  exact ⟨noted, recorded⟩

/-- The machine that takes only the steps a condition allows. -/
def restrict (machine : Machine State Label) (Allowed : State → Label → Prop)
    [∀ state label, Decidable (Allowed state label)] : Machine State Label where
  step state label := if Allowed state label then machine.step state label else none

theorem restrict_step_iff (machine : Machine State Label) (Allowed : State → Label → Prop)
    [∀ state label, Decidable (Allowed state label)] (state next : State) (label : Label) :
    (machine.restrict Allowed).step state label = some next ↔
      Allowed state label ∧ machine.step state label = some next := by
  unfold restrict
  dsimp only
  by_cases allowed : Allowed state label
  · rw [if_pos allowed]
    exact ⟨fun stepped => ⟨allowed, stepped⟩, And.right⟩
  · rw [if_neg allowed]
    constructor
    · intro impossible
      cases impossible
    · intro both
      exact absurd both.1 allowed

end Machine

end ChampSim.Transition

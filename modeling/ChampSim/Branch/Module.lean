/-
The interface through which the core drives a branch predictor module, and the
runs in which every `last_branch_result` directly follows the
`predict_branch` of the same instruction pointer.

Two entries of the source's `last_branch_result` are left out: no predictor
modelled here reads the branch target or the branch type.
-/

import ChampSim.Address
import ChampSim.Library.Transition

set_option autoImplicit false

namespace ChampSim.Branch

open Transition

/-- What is left of the values that `rand()` is going to return. -/
abbrev Rand := Nat → Nat

namespace Rand

def rand (stream : Rand) : Nat := stream 0

def rest (stream : Rand) : Rand := fun position => stream (position + 1)

end Rand

structure PredictorModule (State : Type) where
  predictBranch : State → Address → Bool × State
  lastBranchResult : State → Address → Bool → State

inductive Call where
  | predictBranch (ip : Address)
  | lastBranchResult (ip : Address) (taken : Bool)
deriving DecidableEq, Repr

/-- A predictor between two calls. `predicted` is the instruction pointer of
the directly preceding call when that call was a prediction. -/
structure Session (State : Type) where
  predictor : State
  predicted : Option Address

namespace PredictorModule

variable {State : Type}

/-- A result is accepted directly after the prediction of the same branch. -/
def machine (predictor : PredictorModule State) : Machine (Session State) Call where
  step session call :=
    match call with
    | .predictBranch ip =>
        some ⟨(predictor.predictBranch session.predictor ip).2, some ip⟩
    | .lastBranchResult ip taken =>
        if session.predicted = some ip then
          some ⟨predictor.lastBranchResult session.predictor ip taken, none⟩
        else none

@[simp] theorem step_predictBranch (predictor : PredictorModule State)
    (session : Session State) (ip : Address) :
    predictor.machine.step session (.predictBranch ip) =
      some ⟨(predictor.predictBranch session.predictor ip).2, some ip⟩ := rfl

theorem step_lastBranchResult_iff (predictor : PredictorModule State)
    (session next : Session State) (ip : Address) (taken : Bool) :
    predictor.machine.step session (.lastBranchResult ip taken) = some next ↔
      session.predicted = some ip ∧
        next = ⟨predictor.lastBranchResult session.predictor ip taken, none⟩ := by
  change (if session.predicted = some ip then some _ else none) = some next ↔ _
  by_cases paired : session.predicted = some ip
  · rw [if_pos paired]
    constructor
    · intro same
      exact ⟨paired, (Option.some.inj same).symm⟩
    · intro both
      rw [both.2]
  · rw [if_neg paired]
    constructor
    · intro impossible
      cases impossible
    · intro both
      exact absurd both.1 paired

def start (initial : State) : Session State := ⟨initial, none⟩

/-- One whole branch: its prediction and then its outcome. -/
def branch (predictor : PredictorModule State) (state : State) (outcome : Address × Bool) : State :=
  predictor.lastBranchResult (predictor.predictBranch state outcome.1).2 outcome.1 outcome.2

def feed (predictor : PredictorModule State) (state : State)
    (outcomes : List (Address × Bool)) : State :=
  outcomes.foldl predictor.branch state

/-- What is predicted after `count` branches with one address and outcome. -/
def constantPrediction (predictor : PredictorModule State) (state : State)
    (outcome : Address × Bool) (count : Nat) : Bool :=
  (predictor.predictBranch (predictor.feed state (List.replicate count outcome)) outcome.1).1

def callsOf (outcomes : List (Address × Bool)) : List Call :=
  outcomes.flatMap (fun outcome =>
    [.predictBranch outcome.1, .lastBranchResult outcome.1 outcome.2])

theorem feed_append (predictor : PredictorModule State) (state : State)
    (first second : List (Address × Bool)) :
    predictor.feed state (first ++ second) = predictor.feed (predictor.feed state first) second :=
  List.foldl_append

theorem feed_snoc (predictor : PredictorModule State) (state : State)
    (outcomes : List (Address × Bool)) (last : Address × Bool) :
    predictor.feed state (outcomes ++ [last]) =
      predictor.branch (predictor.feed state outcomes) last := by
  rw [feed_append]
  rfl

theorem feed_replicate_succ (predictor : PredictorModule State) (state : State)
    (outcome : Address × Bool) (count : Nat) :
    predictor.feed state (List.replicate (count + 1) outcome) =
      predictor.branch (predictor.feed state (List.replicate count outcome)) outcome := by
  rw [List.replicate_succ', feed_snoc]

theorem run_callsOf (predictor : PredictorModule State) (state : State)
    (previous : Option Address) (outcomes : List (Address × Bool)) :
    ∃ after, predictor.machine.run ⟨state, previous⟩ (callsOf outcomes) =
      some ⟨predictor.feed state outcomes, after⟩ := by
  induction outcomes generalizing state previous with
  | nil => exact ⟨previous, rfl⟩
  | cons outcome rest ih =>
      obtain ⟨after, ran⟩ := ih (predictor.branch state outcome) none
      refine ⟨after, ?_⟩
      change predictor.machine.run _ (_ :: _ :: callsOf rest) = _
      rw [Machine.run_cons, step_predictBranch, Option.bind_some, Machine.run_cons,
        (step_lastBranchResult_iff predictor _ _ outcome.1 outcome.2).mpr ⟨rfl, rfl⟩,
        Option.bind_some]
      exact ran

section Projection

variable {Other : Type} {left : PredictorModule State} {right : PredictorModule Other}
variable {project : State → Other}

/-- `project` maps one predictor onto another. -/
structure ProjectsTo (left : PredictorModule State) (right : PredictorModule Other)
    (project : State → Other) : Prop where
  predicts : ∀ state ip, project (left.predictBranch state ip).2 =
    (right.predictBranch (project state) ip).2
  learns : ∀ state ip taken, project (left.lastBranchResult state ip taken) =
    right.lastBranchResult (project state) ip taken

def projectSession (project : State → Other) (session : Session State) : Session Other :=
  ⟨project session.predictor, session.predicted⟩

theorem ProjectsTo.run (projects : ProjectsTo left right project) (calls : List Call)
    (session : Session State) :
    (left.machine.run session calls).map (projectSession project) =
      right.machine.run (projectSession project session) calls := by
  apply Machine.run_map
  intro session call
  cases call with
  | predictBranch ip =>
      rw [step_predictBranch, step_predictBranch, Option.map_some, projectSession,
        projects.predicts]
      rfl
  | lastBranchResult ip taken =>
      change (if session.predicted = some ip then some _ else none).map _ =
        if session.predicted = some ip then some _ else none
      by_cases paired : session.predicted = some ip
      · rw [if_pos paired, if_pos paired, Option.map_some, projectSession, projects.learns]
        rfl
      · rw [if_neg paired, if_neg paired]
        rfl

theorem ProjectsTo.feed (projects : ProjectsTo left right project)
    (outcomes : List (Address × Bool)) (state : State) :
    project (left.feed state outcomes) = right.feed (project state) outcomes := by
  induction outcomes generalizing state with
  | nil => rfl
  | cons outcome rest ih =>
      have same : project (left.branch state outcome) = right.branch (project state) outcome := by
        unfold branch
        rw [projects.learns, projects.predicts]
      change project (left.feed (left.branch state outcome) rest) = _
      rw [ih, same]
      rfl

end Projection

/-- What every prediction prepares, its result may rely on: an invariant of the
predictor and of a note of what happened holds after every recorded run. -/
theorem record_invariant {Note : Type} (predictor : PredictorModule State)
    (note : Session State → Call → Note → Note) (Ready : State → Address → Prop)
    (Invariant : State → Note → Prop)
    (prepares : ∀ state ip, Ready (predictor.predictBranch state ip).2 ip)
    (predicts : ∀ session ip notes, Invariant session.predictor notes →
      Invariant (predictor.predictBranch session.predictor ip).2
        (note session (.predictBranch ip) notes))
    (learns : ∀ session ip taken notes, Ready session.predictor ip →
      Invariant session.predictor notes →
      Invariant (predictor.lastBranchResult session.predictor ip taken)
        (note session (.lastBranchResult ip taken) notes))
    (calls : List Call) (initial : State) (last : Session State) (before after : Note)
    (holds : Invariant initial before)
    (ran : (predictor.machine.record note).run (start initial, before) calls =
      some (last, after)) :
    Invariant last.predictor after ∧ ∀ ip, last.predicted = some ip → Ready last.predictor ip := by
  refine (predictor.machine.record note).run_invariant
    (fun recorded => Invariant recorded.1.predictor recorded.2 ∧
      ∀ ip, recorded.1.predicted = some ip → Ready recorded.1.predictor ip)
    ?_ calls (start initial, before) (last, after) ⟨holds, ?_⟩ ran
  · rintro ⟨session, notes⟩ call ⟨next, noted⟩ ⟨kept, ready⟩ stepped
    obtain ⟨moved, same⟩ := (Machine.record_step_iff _ _ _ _ _).mp stepped
    dsimp only at moved same kept ready ⊢
    subst same
    cases call with
    | predictBranch ip =>
        cases moved
        refine ⟨predicts session ip notes kept, ?_⟩
        intro predicted equal
        cases equal
        exact prepares session.predictor ip
    | lastBranchResult ip taken =>
        obtain ⟨paired, arrived⟩ :=
          (step_lastBranchResult_iff predictor session next ip taken).mp moved
        subst arrived
        refine ⟨learns session ip taken notes (ready ip paired) kept, ?_⟩
        intro predicted impossible
        cases impossible
  · intro predicted impossible
    cases impossible

theorem run_invariant (predictor : PredictorModule State) (Ready : State → Address → Prop)
    (Invariant : State → Prop)
    (prepares : ∀ state ip, Ready (predictor.predictBranch state ip).2 ip)
    (predicts : ∀ state ip, Invariant state → Invariant (predictor.predictBranch state ip).2)
    (learns : ∀ state ip taken, Ready state ip → Invariant state →
      Invariant (predictor.lastBranchResult state ip taken))
    (calls : List Call) (initial : State) (last : Session State) (holds : Invariant initial)
    (ran : predictor.machine.run (start initial) calls = some last) :
    Invariant last.predictor ∧ ∀ ip, last.predicted = some ip → Ready last.predictor ip := by
  obtain ⟨noted, recorded⟩ :=
    predictor.machine.exists_recorded_run (fun _ _ _ => ()) calls _ last () ran
  exact predictor.record_invariant _ Ready (fun state _ => Invariant state) prepares
    (fun session ip _ => predicts session.predictor ip)
    (fun session ip taken _ => learns session.predictor ip taken)
    calls initial last () noted holds recorded

end PredictorModule

end ChampSim.Branch

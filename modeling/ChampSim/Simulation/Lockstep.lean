/-
Every operable keeps step with the global clock, over all phases of a run.
-/

import ChampSim.Simulation.Clocks

set_option autoImplicit false

namespace ChampSim.Simulation

open Transition

theorem foldl_min_le (periods : List Nat) (bound : Nat) :
    periods.foldl min bound ≤ bound ∧ ∀ period ∈ periods, periods.foldl min bound ≤ period := by
  induction periods generalizing bound with
  | nil => exact ⟨Nat.le_refl _, fun period impossible => absurd impossible List.not_mem_nil⟩
  | cons first rest ih =>
      obtain ⟨atMost, each⟩ := ih (min bound first)
      rw [List.foldl_cons]
      refine ⟨Nat.le_trans atMost (Nat.min_le_left _ _), ?_⟩
      intro period member
      rcases List.mem_cons.mp member with same | later
      · rw [same]
        exact Nat.le_trans atMost (Nat.min_le_right _ _)
      · exact each period later

namespace Clocks

def quantum (corePeriod : Nat → Nat) (clocks : Clocks) : Nat :=
  (clocks.view.map (clocks.period corePeriod)).foldl min (2 ^ 63 - 1)

theorem quantum_le (corePeriod : Nat → Nat) (clocks : Clocks) (part : Part) (member : part ∈ clocks.view) :
    clocks.quantum corePeriod ≤ clocks.period corePeriod part :=
  (foldl_min_le _ _).2 _ (List.mem_map_of_mem member)

variable {corePeriod : Nat → Nat}

theorem Moves.quantum (corePeriod : Nat → Nat) {before after : Clocks} {moved : List Part}
    (moves : Moves before after moved) :
    after.quantum corePeriod = before.quantum corePeriod := by
  unfold Clocks.quantum
  rw [moves.view, funext (moves.period corePeriod)]

def tick (clocks : Clocks) (amount : Nat) : Clocks := { clocks with now := clocks.now + amount }

/-- Every clock has stopped at its first tick from the global clock on. -/
def InStep (corePeriod : Nat → Nat) (clocks : Clocks) : Prop :=
  ∀ part ∈ clocks.view, Caught corePeriod clocks part

structure Follows (corePeriod : Nat → Nat) (before after : Clocks) : Prop where
  moves : Moves (before.tick (before.quantum corePeriod)) after before.view
  inStep : InStep corePeriod after

theorem Follows.atMostOnce {before after : Clocks} (follows : Follows corePeriod before after)
    (inStep : InStep corePeriod before) (part : Part) (member : part ∈ before.view) :
    after.time part = before.time part ∨
      after.time part = before.time part + before.period corePeriod part := by
  have earlier := inStep part member
  have later := follows.inStep part (follows.moves.view ▸ member)
  have samePeriod := follows.moves.period corePeriod part
  have short := before.quantum_le corePeriod part member
  obtain ⟨count, counted⟩ := earlier.ticks
  obtain ⟨further, reached⟩ := later.ticks
  have beyond := later.first
  have now := follows.moves.now
  change after.period corePeriod part = before.period corePeriod part at samePeriod
  change after.now = before.now + before.quantum corePeriod at now
  have first := earlier.first
  have before' := earlier.reached
  have after' := later.reached
  rw [samePeriod] at beyond reached
  rw [counted] at first before' ⊢
  rw [reached] at beyond after' ⊢
  rw [now] at beyond after'
  generalize before.period corePeriod part = period at *
  have atMost : further < count + 2 := by
    apply Nat.lt_of_mul_lt_mul_left (a := period)
    rw [Nat.mul_add]
    omega
  have atLeast : count < further + 1 := by
    apply Nat.lt_of_mul_lt_mul_left (a := period)
    rw [Nat.mul_add]
    omega
  rcases Nat.lt_or_eq_of_le (Nat.le_of_lt_succ atMost) with less | same
  · have same : further = count := by omega
    exact Or.inl (by rw [same])
  · exact Or.inr (by rw [same, Nat.mul_add, Nat.mul_one])

end Clocks

namespace System

variable {Module Others Source : Type} (parts : Parts Module Others Source)

theorem timeQuantum_eq (system : System Module Others Source) :
    system.timeQuantum parts = system.clocks.quantum (corePeriod parts) := by
  unfold timeQuantum Clocks.quantum
  rw [← ((system.clocks_view parts).map (system.clockPeriod parts)).foldl_eq]
  exact congrArg (fun periods => List.foldl min _ (List.map periods _))
    (funext (fun part => (system.clocks_period parts part).symm))

theorem doCycle_follows (traceIndex : List Nat) (order : List Part)
    (system next : System Module Others Source) (progress : Int)
    (inStep : system.clocks.InStep (corePeriod parts))
    (ran : (system.tick (system.timeQuantum parts)).doCycle parts traceIndex order =
      some (progress, next)) :
    system.clocks.Follows (corePeriod parts) next.clocks := by
  have near : ∀ part ∈ (system.tick (system.timeQuantum parts)).clocks.view,
      (system.tick (system.timeQuantum parts)).Near parts part := by
    intro part member
    have caught := inStep part member
    have first := caught.first
    refine ⟨caught.ticks, ?_⟩
    change system.clocks.time part < system.clocks.now + system.timeQuantum parts + _
    change _ < _ + system.clocks.period (corePeriod parts) part
    omega
  obtain ⟨moves, caught⟩ := doCycle_caught parts traceIndex order _ next progress near ran
  rw [timeQuantum_eq] at moves
  refine ⟨⟨moves.now, moves.cores, moves.periods, ?_⟩, caught⟩
  intro part outside
  apply moves.time part
  unfold doCycle at ran
  split at ran
  · rename_i sorted
    intro among
    exact outside ((sorted.1.trans (clocks_view parts _).symm).mem_iff.mp among)
  · cases ran

end System

namespace Phase

variable {Module Others Source : Type} (parts : Parts Module Others Source)

theorem start_clocks (info : PhaseInfo) (system : System Module Others Source) :
    (start parts info system).system.clocks = system.clocks := by
  unfold start
  dsimp only
  generalize system.operableView parts = view
  induction view generalizing system with
  | nil => rfl
  | cons part rest ih => exact (ih _).trans (system.beginPart_clocks parts info.isWarmup part)

theorem afterCycle_clocks (info : PhaseInfo) (phase : Phase Module Others Source) (progress : Int)
    (system : System Module Others Source) :
    (phase.afterCycle parts info progress system).system.clocks = system.clocks := by
  unfold afterCycle
  dsimp only
  split
  · rfl
  · rename_i goesOn
    clear goesOn
    dsimp only
    generalize finishing parts _ _ = finished
    induction finished generalizing system with
    | nil => rfl
    | cons cpu rest ih => exact (ih _).trans (system.endPhase_clocks parts cpu)

theorem step_follows (info : PhaseInfo) (phase next : Phase Module Others Source)
    (order : List Part) (inStep : phase.system.clocks.InStep (System.corePeriod parts))
    (stepped : phase.step parts info order = some next) :
    phase.system.clocks.Follows (System.corePeriod parts) next.system.clocks := by
  unfold step at stepped
  split at stepped
  · cases stepped
  · obtain ⟨⟨progress, system⟩, cycled, same⟩ := Option.map_eq_some_iff.mp stepped
    subst same
    rw [afterCycle_clocks]
    exact phase.system.doCycle_follows parts info.traceIndex order system progress inStep cycled

end Phase

/-! ### Whole runs -/

def Label.isCycle : Label → Bool
  | .cycle _ => true
  | _ => false

namespace Main

variable {Module Others Source : Type} (parts : Parts Module Others Source)

theorem step_clocks (main next : Main Module Others Source) (label : Label)
    (inStep : main.current.clocks.InStep (System.corePeriod parts))
    (stepped : main.step parts label = some next) :
    if label.isCycle then main.current.clocks.Follows (System.corePeriod parts) next.current.clocks
    else next.current.clocks = main.current.clocks := by
  cases label with
  | beginPhase =>
      obtain ⟨between, info, rest, _pending, same⟩ := step_beginPhase parts stepped
      have now : main.current = main.system := by
        unfold current
        rw [between]
        rfl
      rw [now, same]
      exact Phase.start_clocks parts info main.system
  | cycle order =>
      obtain ⟨⟨info, phase⟩, running, cycled⟩ := Option.bind_eq_some_iff.mp stepped
      obtain ⟨after, passed, same⟩ := Option.map_eq_some_iff.mp cycled
      subst same
      have now : main.current = phase.system := by
        unfold current
        rw [running]
        rfl
      rw [now] at inStep ⊢
      exact phase.step_follows parts info after order inStep passed
  | endPhase =>
      obtain ⟨⟨info, phase⟩, running, ended⟩ := Option.bind_eq_some_iff.mp stepped
      dsimp only at ended
      split at ended
      · obtain ⟨stats, _named, same⟩ := Option.map_eq_some_iff.mp ended
        subst same
        have now : main.current = phase.system := by
          unfold current
          rw [running]
          rfl
        rw [now]
        rfl
      · cases ended

theorem run_clocks (labels : List Label) (start reached : Main Module Others Source)
    (inStep : start.current.clocks.InStep (System.corePeriod parts))
    (ran : (mains parts).run start labels = some reached) :
    reached.current.clocks.InStep (System.corePeriod parts) ∧
      reached.current.clocks.view = start.current.clocks.view ∧
      (∀ part, reached.current.clocks.period (System.corePeriod parts) part =
        start.current.clocks.period (System.corePeriod parts) part) ∧
      reached.current.clocks.now = start.current.clocks.now +
        labels.countP Label.isCycle * start.current.clocks.quantum (System.corePeriod parts) := by
  induction labels generalizing start with
  | nil =>
      cases ran
      refine ⟨inStep, rfl, fun _part => rfl, ?_⟩
      rw [List.countP_nil, Nat.zero_mul]
      rfl
  | cons label rest ih =>
      obtain ⟨middle, stepped, remaining⟩ := Option.bind_eq_some_iff.mp ran
      have moved := start.step_clocks parts middle label inStep stepped
      cases cycle : label.isCycle with
      | true =>
          rw [if_pos cycle] at moved
          have further := ih middle moved.inStep remaining
          have quantum := moved.moves.quantum (System.corePeriod parts)
          refine ⟨further.1, further.2.1.trans moved.moves.view,
            fun part => (further.2.2.1 part).trans (moved.moves.period _ part), ?_⟩
          rw [further.2.2.2, quantum, moved.moves.now, List.countP_cons, cycle, if_pos rfl,
            Nat.add_mul, Nat.one_mul]
          change start.current.clocks.now + start.current.clocks.quantum _ +
            _ * start.current.clocks.quantum _ = _
          omega
      | false =>
          rw [if_neg (Bool.not_eq_true _ |>.mpr cycle)] at moved
          rw [← moved] at inStep ⊢
          have further := ih middle inStep remaining
          refine ⟨further.1, further.2.1, further.2.2.1, ?_⟩
          rw [further.2.2.2, List.countP_cons, cycle]
          rfl

end Main

/-- In every run of the simulator, whatever its operables do and in whatever
order they are sorted, each of them has operated once for each of its periods
that has begun, and never twice between two ticks of the global clock. -/
theorem mains_lockstep {Module Others Source : Type} (parts : Parts Module Others Source)
    (cpus : List (Cpu Module)) (operables : List Operable) (others : Others)
    (traces : List Source) (phases : List PhaseInfo)
    (unstarted : (∀ one ∈ cpus, one.core.currentTime = 0) ∧
      ∀ operable ∈ operables, operable.currentTime = 0)
    (labels : List Label) (reached : Main Module Others Source)
    (ran : (mains parts).run (Main.init cpus operables others traces phases) labels =
      some reached) :
    reached.current.now =
        labels.countP Label.isCycle * reached.current.timeQuantum parts ∧
      (∀ part ∈ reached.current.operableView parts, reached.current.currentTime part =
        (reached.current.now + reached.current.clockPeriod parts part - 1) /
          reached.current.clockPeriod parts part * reached.current.clockPeriod parts part) ∧
      ∀ label next, (mains parts).step reached label = some next →
        ∀ part ∈ reached.current.operableView parts,
          next.current.currentTime part = reached.current.currentTime part ∨
            next.current.currentTime part =
              reached.current.currentTime part + reached.current.clockPeriod parts part := by
  have inStep : (Main.init cpus operables others traces phases).current.clocks.InStep
      (System.corePeriod parts) := by
    intro part member
    have positive := (Main.init cpus operables others traces phases).current.clockPeriod_positive
      parts part
    rw [← System.clocks_period] at positive
    have zero : (Main.init cpus operables others traces phases).current.clocks.time part = 0 := by
      rw [System.clocks_time]
      cases part with
      | core cpu =>
          change (cpus[cpu]?).elim 0 _ = 0
          cases present : cpus[cpu]? with
          | none => rfl
          | some one => exact unstarted.1 one (List.mem_of_getElem? present)
      | other index =>
          change (operables[index]?).elim 0 _ = 0
          cases present : operables[index]? with
          | none => rfl
          | some operable => exact unstarted.2 operable (List.mem_of_getElem? present)
    refine ⟨?_, ?_, ?_⟩
    · rw [zero]
      exact Nat.dvd_zero _
    · exact Nat.zero_le _
    · rw [zero]
      exact Nat.lt_of_lt_of_le positive (Nat.le_add_left _ _)
  obtain ⟨reachedInStep, view, period, now⟩ := Main.run_clocks parts labels _ reached inStep ran
  refine ⟨?_, ?_, ?_⟩
  · rw [System.timeQuantum_eq]
    unfold Clocks.quantum
    rw [view, funext period]
    refine now.trans ?_
    change 0 + _ = _
    rw [Nat.zero_add]
    rfl
  · intro part member
    rw [← (System.clocks_view parts _).mem_iff] at member
    rw [← System.clocks_time, ← System.clocks_period]
    exact (reachedInStep part member).time_eq
  · intro label next stepped part member
    rw [← (System.clocks_view parts _).mem_iff] at member
    rw [← System.clocks_time, ← System.clocks_time, ← System.clocks_period]
    have moved := reached.step_clocks parts next label reachedInStep stepped
    cases cycle : label.isCycle with
    | true =>
        rw [if_pos cycle] at moved
        exact moved.atMostOnce reachedInStep part member
    | false =>
        rw [if_neg (Bool.not_eq_true _ |>.mpr cycle)] at moved
        exact Or.inl (by rw [moved])

private theorem smallMain_runs :
    ((mains (smallParts 2)).run smallMain
      (.beginPhase :: List.replicate 4 (.cycle smallOrder))).any (fun reached =>
        decide (reached.current.now = 8)) = true := by
  decide +kernel

theorem mains_lockstep_smallMain :
    ∃ reached, (mains (smallParts 2)).run smallMain
        (.beginPhase :: List.replicate 4 (.cycle smallOrder)) = some reached ∧
      reached.current.now = 8 ∧
      ∀ part ∈ reached.current.operableView (smallParts 2), reached.current.currentTime part =
        (reached.current.now + reached.current.clockPeriod (smallParts 2) part - 1) /
          reached.current.clockPeriod (smallParts 2) part *
            reached.current.clockPeriod (smallParts 2) part := by
  obtain ⟨reached, ran, now⟩ := (Option.any_eq_true _ _).mp smallMain_runs
  exact ⟨reached, ran, of_decide_eq_true now, (mains_lockstep (smallParts 2) [smallCpu]
    [smallOperable] () [smallTrace] [smallPhase] (by decide) _ reached ran).2.1⟩

end ChampSim.Simulation

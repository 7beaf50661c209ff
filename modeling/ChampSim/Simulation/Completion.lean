/-
When the phases of a simulation are complete.

A core is finished by the first pass after which it has retired the length of
the phase, or some trace has ended. Its region of interest ends there, whatever
the passes that follow do.
-/

import ChampSim.Simulation.Passes
import Mathlib.Data.List.Induction

set_option autoImplicit false

namespace ChampSim.Simulation

open Transition
open ChampSim.Core (O3Cpu)

variable {Module Others Source : Type} {parts : Parts Module Others Source}

/-- The statistics that `end_phase` closes. -/
def Cpu.closing (config : Core.Config) (one : Cpu Module) : CpuStats :=
  { one.simStats with
    endInstrs := one.core.numRetired
    endCycles := (one.core.currentTime / config.clockPeriod : Nat) }

/-- A core before and after the ends of phases of some cores. -/
structure Closed (config : Core.Config) (isFinished : Bool) (one after : Cpu Module) : Prop where
  core : after.core = one.core
  beginPhaseInstr : after.beginPhaseInstr = one.beginPhaseInstr
  closing : after.closing config = one.closing config
  roiStats : after.roiStats = if isFinished then one.closing config else one.roiStats

theorem Cpu.endPhase_closed (config : Core.Config) (isFinished : Bool) (one : Cpu Module) :
    Closed config isFinished one (one.endPhase config isFinished) := by
  cases isFinished with
  | true => exact ⟨rfl, rfl, rfl, rfl⟩
  | false => exact ⟨rfl, rfl, rfl, rfl⟩

theorem endPhases_at (parts : Parts Module Others Source) (finished : List Nat) (system : System Module Others Source) (cpu : Nat)
    (one : Cpu Module) (present : system.cpus[cpu]? = some one) :
    ∃ after, (finished.foldl (System.endPhase parts) system).cpus[cpu]? = some after ∧
      Closed (parts.config cpu) (decide (cpu ∈ finished)) one after := by
  induction finished generalizing system one with
  | nil => exact ⟨one, present, rfl, rfl, rfl, rfl⟩
  | cons other rest ih =>
      have here := System.endPhase_at parts other system cpu
      rw [present] at here
      obtain ⟨after, found, closed⟩ := ih (system.endPhase parts other) _ here
      have first := Cpu.endPhase_closed (parts.config cpu) (decide (other = cpu)) one
      refine ⟨after, found, closed.core.trans first.core,
        closed.beginPhaseInstr.trans first.beginPhaseInstr, closed.closing.trans first.closing, ?_⟩
      rw [closed.roiStats, first.closing, first.roiStats]
      by_cases later : cpu ∈ rest
      · simp [later]
      · by_cases same : other = cpu
        · simp [same]
        · have apart : ¬cpu = other := fun equal => same equal.symm
          simp [later, same, apart]

theorem endPhases_traces (parts : Parts Module Others Source) (finished : List Nat) (system : System Module Others Source) :
    (finished.foldl (System.endPhase parts) system).traces = system.traces := by
  have one : ∀ (cpu : Nat) (view : List Part) (reached : System Module Others Source),
      (view.foldl (System.endPart parts cpu) reached).traces = reached.traces := by
    intro cpu view
    induction view with
    | nil =>
        intro reached
        rfl
    | cons part rest ih =>
        intro reached
        refine (ih _).trans ?_
        cases part with
        | core other => rfl
        | other index =>
            unfold System.endPart
            dsimp only
            cases reached.operables[index]? <;> rfl
  induction finished generalizing system with
  | nil => rfl
  | cons cpu rest ih => exact (ih _).trans (one cpu (system.operableView parts) system)

/-! ### One pass -/

namespace Phase

variable {info : PhaseInfo} {phase next : Phase Module Others Source} {order : List Part}

theorem step_cases (stepped : phase.step parts info order = some next) :
    phase.aborted = false ∧ phase.isComplete = false ∧ ∃ progress system,
      (phase.system.tick (phase.system.timeQuantum parts)).doCycle parts info.traceIndex order =
        some (progress, system) ∧
      ((phase.Aborts progress system ∧ next = { phase with system, aborted := true }) ∨
        (¬phase.Aborts progress system ∧ next =
          { system := (finishing parts phase.phaseComplete (phase.nextComplete parts info system)).foldl
              (System.endPhase parts) system
            stalledCycle := phase.countStalled progress
            livelockTimer := (phase.checkLivelock system.simInstrs).2.1
            livelockInstr := (phase.checkLivelock system.simInstrs).2.2
            phaseComplete := phase.nextComplete parts info system })) := by
  unfold step at stepped
  split at stepped
  · cases stepped
  · rename_i running
    obtain ⟨⟨progress, system⟩, cycled, same⟩ := Option.map_eq_some_iff.mp stepped
    rw [Bool.or_eq_true, not_or] at running
    refine ⟨Bool.not_eq_true _ |>.mp running.1, Bool.not_eq_true _ |>.mp running.2, progress, system,
      cycled, ?_⟩
    subst same
    by_cases aborts : phase.Aborts progress system
    · exact Or.inl ⟨aborts, if_pos aborts⟩
    · exact Or.inr ⟨aborts, if_neg aborts⟩

def reachesEnd (parts : Parts Module Others Source) (info : PhaseInfo)
    (system : System Module Others Source) (one : Cpu Module) : Bool :=
  system.traces.any parts.eof || decide (info.length ≤ one.simInstr)

theorem nextComplete_at (parts : Parts Module Others Source) (info : PhaseInfo)
    (phase : Phase Module Others Source) (system : System Module Others Source)
    (cpu : Nat) (flag : Bool) (one : Cpu Module) (flagged : phase.phaseComplete[cpu]? = some flag)
    (present : system.cpus[cpu]? = some one) :
    (phase.nextComplete parts info system)[cpu]? =
      some (flag || reachesEnd parts info system one) := by
  unfold nextComplete System.simInstrs
  rw [List.getElem?_zipWith, List.getElem?_map, flagged, present]
  dsimp only [Option.map_some]
  rw [Bool.or_assoc]
  rfl

theorem mem_finishing (parts : Parts Module Others Source) (before after : List Bool) (cpu : Nat)
    (flag : Bool) (flagged : before[cpu]? = some flag) :
    cpu ∈ finishing parts before after ↔ after[cpu]? ≠ some flag := by
  unfold finishing
  rw [List.mem_filter, (parts.viewed before.length).mem_iff, List.mem_range, decide_eq_true_iff,
    flagged]
  exact and_iff_right (List.getElem?_eq_some_iff.mp flagged).1

/-- One core before and after a pass that does not abort. -/
structure Passed (parts : Parts Module Others Source) (info : PhaseInfo)
    (next : Phase Module Others Source) (cpu : Nat) (flag : Bool) (one after : Cpu Module) :
    Prop where
  present : next.system.cpus[cpu]? = some after
  numRetired : one.core.numRetired ≤ after.core.numRetired
  beginPhaseInstr : after.beginPhaseInstr = one.beginPhaseInstr
  begins : after.simStats.beginInstrs = one.simStats.beginInstrs ∧
    after.simStats.beginCycles = one.simStats.beginCycles
  complete : next.phaseComplete[cpu]? = some (flag || reachesEnd parts info next.system after)
  roiStats : after.roiStats =
    if !flag && reachesEnd parts info next.system after then after.closing (parts.config cpu)
    else one.roiStats

theorem step_passed (stepped : phase.step parts info order = some next)
    (alive : next.aborted = false) (cpu : Nat) (flag : Bool) (one : Cpu Module)
    (flagged : phase.phaseComplete[cpu]? = some flag)
    (present : phase.system.cpus[cpu]? = some one) :
    ∃ after, Passed parts info next cpu flag one after := by
  obtain ⟨_, _, progress, system, cycled, aborted | goesOn⟩ := step_cases stepped
  · rw [aborted.2] at alive
    cases alive
  · have all := System.doCycle_cycled info.traceIndex order progress cycled
    rcases all.at cpu with ⟨none, _⟩ | ⟨before, moved, isBefore, isMoved, here⟩
    · change phase.system.cpus[cpu]? = _ at none
      rw [present] at none
      cases none
    · change phase.system.cpus[cpu]? = _ at isBefore
      rw [present] at isBefore
      cases isBefore
      have complete := nextComplete_at parts info phase system cpu flag moved
        flagged isMoved
      obtain ⟨after, found, closed⟩ := endPhases_at parts
        (finishing parts phase.phaseComplete (phase.nextComplete parts info system)) system cpu moved
        isMoved
      have traces := endPhases_traces parts
        (finishing parts phase.phaseComplete (phase.nextComplete parts info system)) system
      have member := mem_finishing parts phase.phaseComplete
        (phase.nextComplete parts info system) cpu flag flagged
      have simInstr : after.simInstr = moved.simInstr := by
        unfold Cpu.simInstr
        rw [closed.core, closed.beginPhaseInstr]
      have ends : reachesEnd parts info next.system after =
          reachesEnd parts info system moved := by
        rw [goesOn.2]
        unfold reachesEnd
        rw [traces, simInstr]
      have beginInstrs := congrArg CpuStats.beginInstrs closed.closing
      have beginCycles := congrArg CpuStats.beginCycles closed.closing
      have kept : moved.roiStats = one.roiStats := (congrArg Cpu.roiStats here.core).trans rfl
      have simStats : moved.simStats = one.simStats := (congrArg Cpu.simStats here.core).trans rfl
      refine ⟨after, ?_, ?_, ?_, ?_, ?_, ?_⟩
      · rw [goesOn.2]
        exact found
      · rw [closed.core]
        exact here.numRetired
      · rw [closed.beginPhaseInstr, here.core]
      · rw [← simStats]
        exact ⟨beginInstrs, beginCycles⟩
      · rw [ends, goesOn.2]
        exact complete
      · rw [ends, closed.roiStats, closed.closing, kept]
        rw [complete] at member
        cases flag with
        | true =>
            rw [Bool.true_or] at member
            rw [decide_eq_false (fun among => member.mp among rfl)]
            rfl
        | false =>
            rw [Bool.false_or] at member
            cases reaches : reachesEnd parts info system moved with
            | true =>
                rw [reaches] at member
                rw [decide_eq_true (member.mpr (by decide))]
                rfl
            | false =>
                rw [reaches] at member
                rw [decide_eq_false (fun among => member.mp among rfl)]
                rfl

theorem step_alive (stepped : phase.step parts info order = some next) : phase.aborted = false :=
  (step_cases stepped).1

end Phase

/-! ### Whole phases -/

variable {info : PhaseInfo} {begun : System Module Others Source}

/-- After none of these passes has the core reached the end of the phase. -/
def NotYet (parts : Parts Module Others Source) (info : PhaseInfo)
    (begun : System Module Others Source) (cpu : Nat) (labels : List (List Part)) : Prop :=
  ∀ passed, passed <+: labels → passed ≠ [] → ∀ middle one,
    (passes parts info).run (Phase.start parts info begun) passed = some middle →
    middle.system.cpus[cpu]? = some one → Phase.reachesEnd parts info middle.system one = false

def FinishedBy (parts : Parts Module Others Source) (info : PhaseInfo)
    (begun : System Module Others Source) (cpu : Nat) (first : Cpu Module)
    (earlier : List (List Part)) (order : List Part) (roiStats : CpuStats) : Prop :=
  ∃ before after one,
    (passes parts info).run (Phase.start parts info begun) earlier = some before ∧
      before.step parts info order = some after ∧
      after.system.cpus[cpu]? = some one ∧
      NotYet parts info begun cpu earlier ∧
      Phase.reachesEnd parts info after.system one = true ∧
      roiStats =
        { beginInstrs := first.core.numRetired
          beginCycles := (first.core.currentTime / (parts.config cpu).clockPeriod : Nat)
          endInstrs := one.core.numRetired
          endCycles := (one.core.currentTime / (parts.config cpu).clockPeriod : Nat) }

structure Tracked (parts : Parts Module Others Source) (info : PhaseInfo)
    (begun : System Module Others Source) (cpu : Nat) (first : Cpu Module)
    (labels : List (List Part)) (reached : Phase Module Others Source) (flag : Bool)
    (one : Cpu Module) : Prop where
  present : reached.system.cpus[cpu]? = some one
  flagged : reached.phaseComplete[cpu]? = some flag
  beginPhaseInstr : one.beginPhaseInstr = first.core.numRetired
  numRetired : first.core.numRetired ≤ one.core.numRetired
  begins : one.simStats.beginInstrs = first.core.numRetired ∧ one.simStats.beginCycles =
    (first.core.currentTime / (parts.config cpu).clockPeriod : Nat)
  unfinished : flag = false → NotYet parts info begun cpu labels
  finished : flag = true → ∃ earlier order later, labels = earlier ++ order :: later ∧
    FinishedBy parts info begun cpu first earlier order one.roiStats

theorem start_tracked (cpu : Nat) (first : Cpu Module) (present : begun.cpus[cpu]? = some first) :
    ∃ flag one, Tracked parts info begun cpu first [] (Phase.start parts info begun) flag one := by
  have begins := System.beginPhase_at parts info.isWarmup begun cpu
  rw [present] at begins
  refine ⟨false, _, begins, ?_, rfl, Nat.le_refl _, ⟨rfl, rfl⟩, ?_, ?_⟩
  · exact List.getElem?_replicate_of_lt (List.getElem?_eq_some_iff.mp present).1
  · intro _false passed isPrefix some'
    exact absurd (List.prefix_nil.mp isPrefix) some'
  · intro impossible
    cases impossible

theorem Tracked.step {cpu : Nat} {first : Cpu Module} {labels : List (List Part)}
    {reached next : Phase Module Others Source} {order : List Part} {flag : Bool}
    {one : Cpu Module} (tracked : Tracked parts info begun cpu first labels reached flag one)
    (ran : (passes parts info).run (Phase.start parts info begun) labels = some reached)
    (stepped : reached.step parts info order = some next) (alive : next.aborted = false) :
    ∃ flag one, Tracked parts info begun cpu first (labels ++ [order]) next flag one := by
  obtain ⟨after, passed⟩ := Phase.step_passed stepped alive cpu flag one tracked.flagged
    tracked.present
  have closing : after.closing (parts.config cpu) =
      { beginInstrs := first.core.numRetired
        beginCycles := (first.core.currentTime / (parts.config cpu).clockPeriod : Nat)
        endInstrs := after.core.numRetired
        endCycles := (after.core.currentTime / (parts.config cpu).clockPeriod : Nat) } := by
    unfold Cpu.closing
    dsimp only
    rw [passed.begins.1, passed.begins.2, tracked.begins.1, tracked.begins.2]
  refine ⟨_, after, passed.present, passed.complete, ?_, ?_, ?_, ?_, ?_⟩
  · rw [passed.beginPhaseInstr, tracked.beginPhaseInstr]
  · exact Nat.le_trans tracked.numRetired passed.numRetired
  · rw [passed.begins.1, passed.begins.2]
    exact tracked.begins
  · intro unfinished taken isPrefix some' middle other toMiddle found
    obtain ⟨notBefore, notNow⟩ := Bool.or_eq_false_iff.mp unfinished
    rcases List.prefix_concat_iff.mp isPrefix with whole | part
    · rw [whole, (Machine.run_concat _ _ _ _ _).mpr ⟨reached, ran, stepped⟩] at toMiddle
      cases toMiddle
      rw [passed.present] at found
      cases found
      exact notNow
    · exact tracked.unfinished notBefore taken part some' middle other toMiddle found
  · intro finished
    have roiStats := passed.roiStats
    cases flag with
    | true =>
        obtain ⟨earlier, first', later, same, by'⟩ := tracked.finished rfl
        refine ⟨earlier, first', later ++ [order], ?_, ?_⟩
        · rw [same, List.append_assoc]
          rfl
        · rw [roiStats]
          exact by'
    | false =>
        rw [Bool.false_or] at finished
        rw [finished] at roiStats
        refine ⟨labels, order, [], rfl, reached, next, after, ran, stepped, passed.present,
          tracked.unfinished rfl, finished, ?_⟩
        rw [roiStats]
        exact closing

theorem passes_tracked (labels : List (List Part)) (reached : Phase Module Others Source)
    (ran : (passes parts info).run (Phase.start parts info begun) labels = some reached)
    (alive : reached.aborted = false) (cpu : Nat) (first : Cpu Module)
    (present : begun.cpus[cpu]? = some first) :
    ∃ flag one, Tracked parts info begun cpu first labels reached flag one := by
  induction labels using List.reverseRecOn generalizing reached with
  | nil =>
      cases ran
      exact start_tracked cpu first present
  | append_singleton labels order ih =>
      obtain ⟨middle, before, stepped⟩ := (Machine.run_concat _ _ _ _ _).mp ran
      obtain ⟨flag, one, tracked⟩ := ih middle before (Phase.step_alive stepped)
      exact tracked.step before stepped alive

/-- A phase marks a core complete by the first pass after which the core has
retired its length or a trace has ended, and the region of interest of the core
goes from the start of the phase to that pass, in every later state. -/
theorem passes_roi (parts : Parts Module Others Source) (info : PhaseInfo)
    (begun : System Module Others Source) (labels : List (List Part))
    (reached : Phase Module Others Source)
    (ran : (passes parts info).run (Phase.start parts info begun) labels = some reached)
    (alive : reached.aborted = false) (cpu : Nat) (first : Cpu Module)
    (present : begun.cpus[cpu]? = some first) :
    ∃ one, reached.system.cpus[cpu]? = some one ∧
      ((reached.phaseComplete[cpu]? = some true ∧
          ∃ earlier order later, labels = earlier ++ order :: later ∧
            FinishedBy parts info begun cpu first earlier order one.roiStats) ∨
        (reached.phaseComplete[cpu]? = some false ∧ NotYet parts info begun cpu labels)) := by
  obtain ⟨flag, one, tracked⟩ := passes_tracked labels reached ran alive cpu first present
  refine ⟨one, tracked.present, ?_⟩
  cases flag with
  | true => exact Or.inl ⟨tracked.flagged, tracked.finished rfl⟩
  | false => exact Or.inr ⟨tracked.flagged, tracked.unfinished rfl⟩

private theorem smallSystem_finishes :
    ((passes (smallParts 2) smallPhase).run (Phase.start (smallParts 2) smallPhase smallSystem)
      (List.replicate 10 smallOrder)).any (fun reached =>
        decide (reached.aborted = false ∧ reached.phaseComplete = [true])) = true := by
  decide +kernel

theorem passes_roi_smallSystem :
    ∃ reached one, (passes (smallParts 2) smallPhase).run
        (Phase.start (smallParts 2) smallPhase smallSystem) (List.replicate 10 smallOrder) =
          some reached ∧
      reached.system.cpus[0]? = some one ∧ ∃ earlier order later,
        List.replicate 10 smallOrder = earlier ++ order :: later ∧
          FinishedBy (smallParts 2) smallPhase smallSystem 0 smallCpu earlier order
            one.roiStats := by
  obtain ⟨reached, ran, known⟩ := (Option.any_eq_true _ _).mp smallSystem_finishes
  obtain ⟨alive, complete⟩ := of_decide_eq_true known
  obtain ⟨one, present, finished | running⟩ := passes_roi (smallParts 2) smallPhase smallSystem _
    reached ran alive 0 smallCpu rfl
  · exact ⟨reached, one, ran, present, finished.2⟩
  · rw [complete] at running
    cases running.1

end ChampSim.Simulation

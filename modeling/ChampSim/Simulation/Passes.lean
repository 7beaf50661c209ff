/-
What one pass of a phase does to the cores, as the phase sees them.

A cycle leaves what the phases record of a core alone, and it never lowers the
count of retired instructions. When no operable reports progress, it leaves the
back end of every core alone too.
-/

import ChampSim.Simulation.Clocks

set_option autoImplicit false

namespace ChampSim.Core

/-- The part of a core that only instructions under way can change. -/
structure BackEnd where
  dibHitBuffer : List OooModelInstr
  decodeBuffer : List OooModelInstr
  dispatchBuffer : List OooModelInstr
  rob : List OooModelInstr
  lq : List (Option LsqEntry)
  sq : List LsqEntry
  regAllocator : RegisterAllocator

def O3Cpu.backEnd {Module : Type} (state : O3Cpu Module) : BackEnd where
  dibHitBuffer := state.dibHitBuffer
  decodeBuffer := state.decodeBuffer
  dispatchBuffer := state.dispatchBuffer
  rob := state.rob
  lq := state.lq
  sq := state.sq
  regAllocator := state.regAllocator

theorem O3Cpu.initializeInstruction_backEnd {Module : Type} (config : Config)
    (hooks : CoreModules Module) (state : O3Cpu Module) :
    (state.initializeInstruction config hooks).backEnd = state.backEnd := by
  obtain ⟨_, _, _, _, shape⟩ := O3Cpu.readInstructions_shape hooks
    (min config.fetchWidth (config.ifetchBufferSize - state.ifetchBuffer.length)) state
  unfold initializeInstruction
  rw [shape]
  rfl

end ChampSim.Core

namespace ChampSim.Simulation

open Transition
open ChampSim.Core (O3Cpu)

variable {Module Others Source : Type} {parts : Parts Module Others Source}

/-- A core before and after some operables have reported some progress. -/
structure Cycled (progress : Int) (one after : Cpu Module) : Prop where
  core : after = { one with core := after.core }
  numRetired : one.core.numRetired ≤ after.core.numRetired
  idle : progress = 0 → after.core.backEnd = one.core.backEnd

/-- All cores before and after, and that the progress is a count. -/
def AllCycled (progress : Int) (cpus next : List (Cpu Module)) : Prop :=
  0 ≤ progress ∧ List.Forall₂ (Cycled progress) cpus next

theorem Cycled.refl (progress : Int) (one : Cpu Module) : Cycled progress one one :=
  ⟨rfl, Nat.le_refl _, fun _idle => rfl⟩

theorem AllCycled.refl (cpus : List (Cpu Module)) : AllCycled 0 cpus cpus :=
  ⟨Int.le_refl 0, List.forall₂_same.mpr (fun one _member => .refl 0 one)⟩

theorem AllCycled.trans {first second : Int} {cpus middle next : List (Cpu Module)}
    (before : AllCycled first cpus middle) (after : AllCycled second middle next) :
    AllCycled (first + second) cpus next := by
  have firstCount := before.1
  have secondCount := after.1
  refine ⟨by omega, ?_⟩
  obtain ⟨-, early⟩ := before
  obtain ⟨-, late⟩ := after
  induction early generalizing next with
  | nil =>
      cases late
      exact .nil
  | cons one _rest ih =>
      cases late with
      | cons other others =>
          refine .cons ⟨?_, Nat.le_trans one.numRetired other.numRetired, ?_⟩ (ih others)
          · rw [other.core, one.core]
          · intro idle
            exact (other.idle (by omega)).trans (one.idle (by omega))

theorem AllCycled.at {progress : Int} {cpus next : List (Cpu Module)}
    (cycled : AllCycled progress cpus next) (cpu : Nat) :
    (cpus[cpu]? = none ∧ next[cpu]? = none) ∨
      ∃ one after, cpus[cpu]? = some one ∧ next[cpu]? = some after ∧ Cycled progress one after := by
  obtain ⟨-, each⟩ := cycled
  induction each generalizing cpu with
  | nil => exact Or.inl ⟨rfl, rfl⟩
  | cons one _rest ih =>
      cases cpu with
      | zero => exact Or.inr ⟨_, _, rfl, rfl, one⟩
      | succ cpu => exact ih cpu

theorem allCycled_set {progress : Int} (count : 0 ≤ progress) (cpus : List (Cpu Module)) (cpu : Nat)
    (one after : Cpu Module) (present : cpus[cpu]? = some one) (cycled : Cycled progress one after) :
    AllCycled progress cpus (cpus.set cpu after) := by
  refine ⟨count, ?_⟩
  induction cpus generalizing cpu with
  | nil => cases present
  | cons first rest ih =>
      cases cpu with
      | zero =>
          cases present
          exact .cons cycled (List.forall₂_same.mpr (fun other _member => .refl progress other))
      | succ cpu => exact .cons (.refl progress first) (ih cpu present)

theorem allCycled_modify (cpus : List (Cpu Module)) (cpu : Nat)
    (change : Cpu Module → Cpu Module) (cycled : ∀ one, Cycled 0 one (change one)) :
    AllCycled 0 cpus (cpus.modify cpu change) := by
  refine ⟨Int.le_refl 0, ?_⟩
  induction cpus generalizing cpu with
  | nil =>
      rw [List.modify_nil]
      exact .nil
  | cons first rest ih =>
      cases cpu with
      | zero =>
          exact .cons (cycled first) (List.forall₂_same.mpr (fun other _member => .refl 0 other))
      | succ cpu => exact .cons (.refl 0 first) (ih cpu)

theorem AllCycled.weaken {first second : Int} {cpus next : List (Cpu Module)}
    (cycled : AllCycled first cpus next) (more : first ≤ second) : AllCycled second cpus next := by
  have count := cycled.1
  refine ⟨Int.le_trans count more, cycled.2.imp ?_⟩
  intro one after here
  exact ⟨here.core, here.numRetired, fun idle => here.idle (by omega)⟩

theorem changeBus_cycled (changes : List (Nat × BusChange)) (cpus : List (Cpu Module)) :
    AllCycled 0 cpus (changes.foldl System.changeBus cpus) := by
  induction changes generalizing cpus with
  | nil => exact .refl cpus
  | cons change rest ih =>
      have here : AllCycled 0 cpus (System.changeBus cpus change) := by
        apply allCycled_modify
        intro one
        obtain ⟨cpu, change⟩ := change
        cases change with
        | serve bus rq pq wq => cases bus <;> exact ⟨rfl, Nat.le_refl _, fun _idle => rfl⟩
        | answer bus response => cases bus <;> exact ⟨rfl, Nat.le_refl _, fun _idle => rfl⟩
      exact here.trans (ih (System.changeBus cpus change))

theorem operate_cycled {config : Core.Config} {hooks : Core.CoreModules Module}
    {beyond : Core.RegisterAllocator → Nat → Bool} {progress : Int} {core next : O3Cpu Module}
    (ran : (core.tick config).operate config hooks beyond = some (progress, next)) :
    0 ≤ progress ∧ core.numRetired ≤ next.numRetired ∧
      (progress = 0 → next.backEnd = core.backEnd) := by
  obtain ⟨retired, framed⟩ := O3Cpu.runStages_framed _ _ (O3Cpu.operate_stages ran)
  have more : core.numRetired ≤ next.numRetired := by
    rw [framed.numRetired]
    exact Nat.le_add_right _ _
  rcases O3Cpu.operate_moved config hooks beyond (core.tick config) next progress ran with
    ⟨idle, read⟩ | further
  · refine ⟨Int.le_of_eq idle.symm, more, ?_⟩
    intro _idle
    rw [read, O3Cpu.initializeInstruction_backEnd]
    rfl
  · exact ⟨Int.le_of_lt further, more, fun idle => by omega⟩

variable {system next : System Module Others Source}

namespace System

theorem operate_cycled (part : Part) (progress : Int)
    (ran : system.operate parts part = some (progress, next)) :
    AllCycled progress system.cpus next.cpus := by
  cases part with
  | core cpu =>
      obtain ⟨one, present, called⟩ := Option.bind_eq_some_iff.mp ran
      obtain ⟨⟨returned, core⟩, operated, same⟩ := Option.map_eq_some_iff.mp called
      cases same
      obtain ⟨count, retired, idle⟩ := Simulation.operate_cycled operated
      exact allCycled_set count system.cpus cpu one _ present ⟨rfl, retired, idle⟩
  | other index =>
      obtain ⟨operable, _present, called⟩ := Option.bind_eq_some_iff.mp ran
      obtain ⟨operated, _called, same⟩ := Option.map_eq_some_iff.mp called
      cases same
      exact (changeBus_cycled operated.changes system.cpus).weaken (Int.natCast_nonneg _)

theorem operateLoop_cycled (part : Part) (passes : Nat) (progress : Int)
    (ran : operateLoop parts part passes system = some (progress, next)) :
    AllCycled progress system.cpus next.cpus := by
  induction passes generalizing system progress with
  | zero =>
      cases ran
      exact .refl _
  | succ passes ih =>
      unfold operateLoop at ran
      split at ran
      · obtain ⟨⟨first, middle⟩, operated, remaining⟩ := Option.bind_eq_some_iff.mp ran
        obtain ⟨⟨more, reached⟩, looped, same⟩ := Option.map_eq_some_iff.mp remaining
        cases same
        exact (operate_cycled part first operated).trans (ih more looped)
      · cases ran
        exact .refl _

theorem operateEach_cycled (order : List Part) (progress : Int)
    (ran : operateEach parts order system = some (progress, next)) :
    AllCycled progress system.cpus next.cpus := by
  induction order generalizing system progress with
  | nil =>
      cases ran
      exact .refl _
  | cons part rest ih =>
      obtain ⟨⟨first, middle⟩, operated, remaining⟩ := Option.bind_eq_some_iff.mp ran
      obtain ⟨⟨more, reached⟩, others, same⟩ := Option.map_eq_some_iff.mp remaining
      cases same
      exact (operateLoop_cycled part _ first operated).trans (ih more others)

theorem fillQueue_cycled (cpu index count : Nat)
    (ran : system.fillQueue parts cpu index count = some next) :
    AllCycled 0 system.cpus next.cpus := by
  induction count generalizing system with
  | zero =>
      cases ran
      exact .refl _
  | succ count ih =>
      obtain ⟨source, _present, read⟩ := Option.bind_eq_some_iff.mp ran
      split at read
      · cases read
        exact .refl _
      · obtain ⟨middle, first, remaining⟩ := Option.bind_eq_some_iff.mp read
        obtain ⟨called, _called, same⟩ := Option.map_eq_some_iff.mp first
        have here : AllCycled 0 system.cpus middle.cpus := by
          rw [← same]
          exact allCycled_modify system.cpus cpu _
            (fun one => ⟨rfl, Nat.le_refl _, fun _idle => rfl⟩)
        exact AllCycled.trans here (ih remaining)

theorem readTraces_cycled (traceIndex : List Nat)
    (ran : system.readTraces parts traceIndex = some next) :
    AllCycled 0 system.cpus next.cpus := by
  apply Queue.foldlM_invariant (readFor parts traceIndex)
    (fun reached => AllCycled 0 system.cpus reached.cpus) _ ?_ system next (.refl _) ran
  intro reached cpu _member later before step
  obtain ⟨index, _index, found⟩ := Option.bind_eq_some_iff.mp step
  obtain ⟨trace, _trace, has⟩ := Option.bind_eq_some_iff.mp found
  obtain ⟨one, _one, filled⟩ := Option.bind_eq_some_iff.mp has
  exact AllCycled.trans before (fillQueue_cycled cpu index _ filled)

theorem doCycle_cycled (traceIndex : List Nat) (order : List Part) (progress : Int)
    (ran : system.doCycle parts traceIndex order = some (progress, next)) :
    AllCycled progress system.cpus next.cpus := by
  unfold doCycle at ran
  split at ran
  · obtain ⟨⟨first, operated⟩, operates, remaining⟩ := Option.bind_eq_some_iff.mp ran
    obtain ⟨last, reads, same⟩ := Option.map_eq_some_iff.mp remaining
    cases same
    have both := (operateEach_cycled order progress operates).trans
      (readTraces_cycled traceIndex reads)
    rw [Int.add_zero] at both
    exact both
  · cases ran

/-! ### The ends of phases -/

/-- What a turn of a loop over `operable_view` does to the cores. -/
def changeCore (change : Nat → Cpu Module → Cpu Module) (cpus : List (Cpu Module)) :
    Part → List (Cpu Module)
  | .core cpu => cpus.modify cpu (change cpu)
  | .other _ => cpus

theorem cores_foldl_modify (change : Nat → Cpu Module → Cpu Module) {view : List Nat}
    (distinct : view.Nodup) (cpus : List (Cpu Module)) (place : Nat) :
    ((view.map Part.core).foldl (changeCore change) cpus)[place]? =
      if place ∈ view then cpus[place]?.map (change place) else cpus[place]? := by
  induction view generalizing cpus with
  | nil => rfl
  | cons first rest ih =>
      obtain ⟨absent, others⟩ := List.nodup_cons.mp distinct
      rw [List.map_cons, List.foldl_cons, ih others]
      change (if place ∈ rest then ((cpus.modify first (change first))[place]?).map (change place)
        else (cpus.modify first (change first))[place]?) = _
      by_cases here : first = place
      · subst here
        rw [if_neg absent, if_pos List.mem_cons_self, List.getElem?_modify_eq]
        rfl
      · have among : place ∈ first :: rest ↔ place ∈ rest := by
          rw [List.mem_cons]
          exact or_iff_right (Ne.symm here)
        simp only [List.getElem?_modify_ne _ _ here, among]

theorem others_foldl (change : Nat → Cpu Module → Cpu Module) (cpus : List (Cpu Module))
    (indices : List Nat) :
    (indices.map Part.other).foldl (changeCore change) cpus = cpus := by
  induction indices with
  | nil => rfl
  | cons index rest ih => exact ih

theorem view_foldl (change : Nat → Cpu Module → Cpu Module)
    (turn : System Module Others Source → Part → System Module Others Source)
    (cores : ∀ reached part, (turn reached part).cpus = changeCore change reached.cpus part)
    (system : System Module Others Source) (cpu : Nat) :
    ((system.operableView parts).foldl turn system).cpus[cpu]? = system.cpus[cpu]?.map (change cpu) := by
  have project : ∀ (view : List Part) (reached : System Module Others Source),
      (view.foldl turn reached).cpus = view.foldl (changeCore change) reached.cpus := by
    intro view
    induction view with
    | nil =>
        intro reached
        rfl
    | cons part rest ih =>
        intro reached
        rw [List.foldl_cons, ih, cores]
        rfl
  rw [project]
  unfold operableView
  have viewed := parts.viewed system.cpus.length
  have within : cpu ∈ parts.cpuView system.cpus.length ↔ cpu < system.cpus.length :=
    viewed.mem_iff.trans List.mem_range
  rw [List.foldl_append, others_foldl,
    cores_foldl_modify change (viewed.nodup_iff.mpr List.nodup_range)]
  by_cases among : cpu ∈ parts.cpuView system.cpus.length
  · rw [if_pos among]
  · have beyond := mt within.mpr among
    rw [if_neg among, List.getElem?_eq_none (by omega)]
    rfl

theorem beginPhase_at (parts : Parts Module Others Source) (isWarmup : Bool) (system : System Module Others Source) (cpu : Nat) :
    ((system.operableView parts).foldl (beginPart parts isWarmup) system).cpus[cpu]? =
      system.cpus[cpu]?.map (Cpu.beginPhase (parts.config cpu) isWarmup) := by
  apply view_foldl (fun cpu => Cpu.beginPhase (parts.config cpu) isWarmup)
  intro reached part
  cases part with
  | core cpu => rfl
  | other index =>
      unfold beginPart
      dsimp only
      cases reached.operables[index]? <;> rfl

theorem endPhase_at (parts : Parts Module Others Source) (finished : Nat) (system : System Module Others Source) (cpu : Nat) :
    (system.endPhase parts finished).cpus[cpu]? =
      system.cpus[cpu]?.map (Cpu.endPhase (parts.config cpu) (decide (finished = cpu))) := by
  apply view_foldl (fun cpu => Cpu.endPhase (parts.config cpu) (decide (finished = cpu)))
  intro reached part
  cases part with
  | core cpu =>
      unfold endPart
      dsimp only
      rw [parts.numbered cpu]
      rfl
  | other index =>
      unfold endPart
      dsimp only
      cases reached.operables[index]? <;> rfl

end System

end ChampSim.Simulation

/-
The physical registers over whole runs.

A run is recorded with the registers of every instruction when it was
dispatched. Those that have retired come first, and the rest are the entries of
the reorder buffer.
-/

import ChampSim.Core.MemoryStages
import ChampSim.Core.RegisterStages

set_option autoImplicit false

namespace ChampSim.Core

open Transition Cache

/-! ### What was dispatched -/

/-- The registers of the instructions that dispatch adds to the reorder buffer. -/
def O3Cpu.dispatching {Module : Type} (config : Config) (state : O3Cpu Module) :
    List Registers :=
  (state.dispatchInstruction config).elim []
    (fun next => (next.rob.drop state.rob.length).map OooModelInstr.registers)

def noteDispatch {Module : Type} (config : Config) (noted : O3Cpu Module × History)
    (label : Step) (dispatched : List Registers) : List Registers :=
  match label with
  | .stage .dispatchInstruction => dispatched ++ noted.1.dispatching config
  | _ => dispatched

/-- The core with its history and the registers of all that was dispatched. -/
def dispatches {Module : Type} (config : Config) (hooks : CoreModules Module) :
    Machine ((O3Cpu Module × History) × List Registers) Step :=
  (histories config hooks).record (noteDispatch config)

/-- What was dispatched has retired or is in the reorder buffer. -/
structure Dispatches {Module : Type} (config : Config)
    (noted : (O3Cpu Module × History) × List Registers) (gone : List Registers)
    (entries : List RobEntry) : Prop where
  stream : noted.2 = gone ++ entries.map RobEntry.dispatched
  retired : gone.map (fun registers => registers.instrId) = noted.1.2.retired
  kept : noted.1.1.RegistersKept config gone entries

namespace O3Cpu

variable {Module : Type} (config : Config) (hooks : CoreModules Module)

/-- The reorder buffer changes in its memory operations only, and no register does. -/
structure SameRegisters (state next : O3Cpu Module) : Prop where
  rob : withoutOps next.rob = withoutOps state.rob
  regAllocator : next.regAllocator = state.regAllocator
  currentTime : next.currentTime = state.currentTime
  warmup : next.warmup = state.warmup

theorem handleMemoryReturn_sameRegisters {state next : O3Cpu Module}
    (ran : state.runStage config hooks .handleMemoryReturn = some next) :
    SameRegisters state next := by
  obtain ⟨memory, finishes, same⟩ := Option.map_eq_some_iff.mp ran
  have ops := returnLoads_withoutOps config _ _ _ finishes
  rw [← same]
  exact ⟨ops, rfl, rfl, rfl⟩

theorem operateLsq_sameRegisters {state next : O3Cpu Module}
    (ran : state.runStage config hooks .operateLsq = some next) : SameRegisters state next := by
  obtain ⟨memory, finishes, loaded⟩ := Option.bind_eq_some_iff.mp ran
  obtain ⟨loads, _issued, same⟩ := Option.map_eq_some_iff.mp loaded
  have ops := finishStores_withoutOps _ _ _ finishes
  rw [← same]
  exact ⟨ops, rfl, rfl, rfl⟩

theorem frontEnd_sameRegisters {state next : O3Cpu Module} {stage : Stage}
    (front : stage.isFrontEnd = true) (ran : state.runStage config hooks stage = some next) :
    SameRegisters state next := by
  obtain ⟨_, _, _, _, _, _, _, _, same⟩ := frontEnd_shape config hooks state next stage front ran
  rw [same]
  exact ⟨rfl, rfl, rfl, rfl⟩

theorem runStage_dispatches (noted next : (O3Cpu Module × History) × List Registers)
    (stage : Stage) (gone : List Registers) (entries : List RobEntry)
    (inOrder : InOrder config noted.1.1.order noted.1.2) (fresh : noted.1.1.Undispatched)
    (dispatched : Dispatches config noted gone entries)
    (ran : noted.1.1.runStage config hooks stage = some next.1.1)
    (history : noteOrder config noted.1.1 (.stage stage) noted.1.2 = next.1.2)
    (note : noteDispatch config noted.1 (.stage stage) noted.2 = next.2) :
    ∃ goneNext entriesNext, Dispatches config next goneNext entriesNext := by
  have kept := dispatched.kept
  have unchanged : ∀ others : List RobEntry,
      others.map RobEntry.dispatched = entries.map RobEntry.dispatched →
        next.1.1.RegistersKept config gone others → noted.1.2 = next.1.2 → noted.2 = next.2 →
          ∃ goneNext entriesNext, Dispatches config next goneNext entriesNext := by
    intro others same after sameHistory sameNote
    refine ⟨gone, others, ?_, ?_, after⟩
    · rw [← sameNote, same]
      exact dispatched.stream
    · rw [← sameHistory]
      exact dispatched.retired
  have left : SameRegisters noted.1.1 next.1.1 → noted.1.2 = next.1.2 → noted.2 = next.2 →
      ∃ goneNext entriesNext, Dispatches config next goneNext entriesNext := by
    intro same
    exact unchanged entries rfl
      (kept.changeOps next.1.1 same.rob same.regAllocator same.currentTime same.warmup)
  cases stage with
  | retireRob =>
      obtain ⟨reached, left, others, retires, split, sameIds, after, _freed⟩ := kept.retireRob
      cases retires.symm.trans ran
      refine ⟨gone ++ left.map RobEntry.dispatched, others, ?_, ?_, after⟩
      · rw [← note]
        change noted.2 = _
        rw [dispatched.stream, split, List.map_append, List.append_assoc]
      · rw [← history, List.map_append, List.map_map, dispatched.retired]
        exact congrArg _ sameIds
  | completeInflightInstruction =>
      obtain ⟨reached, others, completes, after, same⟩ := kept.completeInflightInstruction
      cases completes.symm.trans ran
      exact unchanged others same after history note
  | executeInstruction =>
      obtain ⟨reached, executes, after⟩ := kept.executeInstruction
      cases executes.symm.trans ran
      exact unchanged entries rfl after history note
  | scheduleInstruction beyond =>
      obtain ⟨reached, others, schedules, after, same⟩ := kept.scheduleInstruction beyond
      cases schedules.symm.trans ran
      exact unchanged others same after history note
  | handleMemoryReturn =>
      exact left (handleMemoryReturn_sameRegisters config hooks ran) history note
  | operateLsq => exact left (operateLsq_sameRegisters config hooks ran) history note
  | dispatchInstruction =>
      obtain ⟨added, grown, after⟩ := kept.dispatchLoop config.dispatchWidth inOrder fresh
        next.1.1 ran
      have adds : noted.1.1.dispatching config = added.map OooModelInstr.registers := by
        unfold dispatching
        have dispatches : noted.1.1.dispatchInstruction config = some next.1.1 := ran
        rw [dispatches, Option.elim_some, grown, List.drop_left]
      refine ⟨gone, _, ?_, ?_, after⟩
      · rw [← note, List.map_append, ← List.append_assoc, ← dispatched.stream, List.map_map]
        change noted.2 ++ noted.1.1.dispatching config = _
        rw [adds]
        rfl
      · rw [← history]
        exact dispatched.retired
  | decodeInstruction => exact left (frontEnd_sameRegisters config hooks rfl ran) history note
  | promoteToDecode => exact left (frontEnd_sameRegisters config hooks rfl ran) history note
  | fetchInstruction => exact left (frontEnd_sameRegisters config hooks rfl ran) history note
  | checkDib => exact left (frontEnd_sameRegisters config hooks rfl ran) history note
  | initializeInstruction => exact left (frontEnd_sameRegisters config hooks rfl ran) history note

theorem occur_registersKept (state next : O3Cpu Module) (event : Event) (gone : List Registers)
    (entries : List RobEntry) (kept : state.RegistersKept config gone entries)
    (ran : state.occur config event = some next) : next.RegistersKept config gone entries := by
  cases event with
  | tick =>
      cases ran
      refine ⟨kept.tracked, kept.ordered.raise ?_⟩
      change state.currentTime + state.latency config.schedulingLatency ≤
        state.currentTime + config.clockPeriod + state.latency config.schedulingLatency
      omega
  | read instrId record =>
      change (if _ then _ else _) = _ at ran
      split at ran
      · cases ran
        exact kept.changeOps _ rfl rfl rfl rfl
      · cases ran
  | serve bus rq pq wq =>
      cases ran
      cases bus with
      | l1i => exact kept.changeOps _ rfl rfl rfl rfl
      | l1d => exact kept.changeOps _ rfl rfl rfl rfl
  | answer bus response =>
      cases ran
      cases bus with
      | l1i => exact kept.changeOps _ rfl rfl rfl rfl
      | l1d => exact kept.changeOps _ rfl rfl rfl rfl
  | beginPhase warmup =>
      change (if _ then _ else _) = _ at ran
      split at ran
      · cases ran
      · rename_i allowed
        cases ran
        refine ⟨kept.tracked, kept.ordered.raise ?_⟩
        apply Nat.add_le_add_left
        unfold latency
        dsimp only
        -- A warm-up pays no latency, and none begins after one has ended.
        cases warmup with
        | false =>
            split
            · exact Nat.zero_le _
            · exact Nat.le_refl _
        | true =>
            cases before : state.warmup with
            | false =>
                rw [before] at allowed
                exact absurd rfl allowed
            | true => exact Nat.le_refl _

theorem init_registersKept (l1iBus l1dBus : Channel) (modules : Module) :
    (O3Cpu.init config l1iBus l1dBus modules).RegistersKept config [] [] := by
  refine ⟨⟨rfl, ⟨?_, List.length_replicate, fun _ => rfl, ?_, ?_, fun _ _ => rfl⟩, trivial, ?_⟩,
    ScheduleOrder.nil⟩
  · have none : RegisterAllocator.archRegisters.filterMap
        (fun _ => (Option.none : Option Nat)) = [] := List.filterMap_none _
    change (List.range config.registerFileSize ++ RegisterAllocator.archRegisters.filterMap
      (fun _ => (Option.none : Option Nat)) ++ []).Perm _
    rw [none, List.append_nil, List.append_nil]
  · intro reg phys impossible
    cases impossible
  · intro write member
    cases member
  · intro entry member
    cases member

theorem dispatches_kept (l1iBus l1dBus : Channel) (modules : Module) (labels : List Step)
    (reached : (O3Cpu Module × History) × List Registers)
    (ran : (dispatches config hooks).run
      ((O3Cpu.init config l1iBus l1dBus modules, {}), []) labels = some reached) :
    Kept config reached.1 ∧ ∃ gone entries, Dispatches config reached gone entries := by
  apply (dispatches config hooks).run_invariant
    (fun noted => Kept config noted.1 ∧ ∃ gone entries, Dispatches config noted gone entries)
    ?_ labels _ reached
    ⟨init_kept config l1iBus l1dBus modules, [], [], rfl, rfl,
      init_registersKept config l1iBus l1dBus modules⟩ ran
  rintro noted label next ⟨kept, gone, entries, dispatched⟩ stepped
  obtain ⟨moved, note⟩ := (Machine.record_step_iff _ _ _ _ _).mp stepped
  refine ⟨kept.step config hooks noted.1 next.1 label moved, ?_⟩
  obtain ⟨_continues, recorded⟩ := (Machine.restrict_step_iff _ _ _ _ _).mp moved
  obtain ⟨ran, history⟩ := (Machine.record_step_iff _ _ _ _ _).mp recorded
  cases label with
  | stage stage =>
      exact runStage_dispatches config hooks noted next stage gone entries kept.inOrder
        kept.undispatched dispatched ran history note
  | event event =>
      have after := occur_registersKept config noted.1.1 next.1.1 event gone entries
        dispatched.kept ran
      refine ⟨gone, entries, ?_, ?_, after⟩
      · rw [← note]
        exact dispatched.stream
      · rw [← history, dispatched.retired]
        cases event with
        | tick => rfl
        | read instrId record => rfl
        | serve bus rq pq wq => rfl
        | answer bus response => rfl
        | beginPhase warmup => rfl

/-! ### Where the physical registers are -/

end O3Cpu

/-- The renamed destinations of the instructions that are scheduled. -/
def renamedDestinations (rob : List OooModelInstr) : List Nat :=
  (rob.filter (fun instr => instr.scheduled)).flatMap (fun instr => instr.destinationRegisters)

theorem Tracked.renamedDestinations_eq {size : Nat} {gone : List Registers}
    {rob : List OooModelInstr} {alloc : RegisterAllocator} {entries : List RobEntry}
    (tracked : Tracked size gone rob alloc entries) :
    (Write.versions (pendingWrites entries)).map Prod.snd = renamedDestinations rob := by
  have ofViews : ∀ instrs : List OooModelInstr, renamedDestinations instrs =
      ((instrs.map OooModelInstr.view).filter (fun view => view.scheduled)).flatMap
        (fun view => view.registers.destinationRegisters) := by
    intro instrs
    rw [List.filter_map, List.flatMap_map]
    rfl
  rw [versions_pendingWrites, ofViews, ← tracked.shown]
  unfold pendingVersions
  rw [List.map_flatMap, List.filter_map, List.flatMap_map]
  clear tracked
  induction entries with
  | nil => rfl
  | cons entry rest ih =>
      rw [List.flatMap_cons, ih]
      cases entry with
      | waiting registers => rfl
      | renamed instrId completed sources destinations => rfl

namespace O3Cpu

variable {Module : Type} (config : Config) (hooks : CoreModules Module)

/-- In every run each physical register is in one place and once there: it is
free, committed, or the destination of one scheduled instruction. The frontend
table names no free register, no renaming finds the free list empty, and what
retirement frees was not free. -/
theorem histories_registersPlaced (l1iBus l1dBus : Channel) (modules : Module)
    (labels : List Step) (reached : O3Cpu Module × History)
    (ran : (histories config hooks).run (O3Cpu.init config l1iBus l1dBus modules, {}) labels =
      some reached) :
    (reached.1.regAllocator.freeRegisters ++
        RegisterAllocator.archRegisters.filterMap reached.1.regAllocator.backendRat ++
          renamedDestinations reached.1.rob).Perm (List.range config.registerFileSize) ∧
      (∀ reg phys, reached.1.regAllocator.frontendRat reg = some phys →
        phys ∉ reached.1.regAllocator.freeRegisters) ∧
      (∀ beyond, (reached.1.scheduleInstruction config beyond).isSome = true) ∧
      ∃ next freed, reached.1.retireRob config = some next ∧
        next.regAllocator.freeRegisters = reached.1.regAllocator.freeRegisters ++ freed ∧
          (reached.1.regAllocator.freeRegisters ++ freed).Nodup := by
  obtain ⟨dispatched, recorded⟩ := (histories config hooks).exists_recorded_run
    (noteDispatch config) labels _ reached [] ran
  obtain ⟨_kept, gone, entries, _stream, _retired, kept⟩ :=
    dispatches_kept config hooks l1iBus l1dBus modules labels (reached, dispatched) recorded
  have renamed := kept.tracked.state.renamed
  refine ⟨?_, ?_, ?_, ?_⟩
  · rw [← kept.tracked.renamedDestinations_eq]
    exact renamed.placed
  · intro reg phys named
    rw [renamed.frontend reg] at named
    exact renamed.taken (renamed.latest_held (List.Subset.refl _) named)
  · intro beyond
    obtain ⟨next, _others, schedules, _after⟩ := kept.scheduleInstruction beyond
    exact Option.isSome_iff_exists.mpr ⟨next, schedules⟩
  · obtain ⟨next, _left, _others, retires, _split, _sameIds, after, freed, added⟩ :=
      kept.retireRob
    refine ⟨next, freed, retires, added, ?_⟩
    rw [← added]
    have distinct := after.tracked.state.renamed.distinct
    unfold RegisterAllocator.registers Versions.items at distinct
    rw [List.append_assoc] at distinct
    exact (List.nodup_append.mp distinct).1

end O3Cpu

theorem histories_registersPlaced_storeAndLoad :
    ∃ reached, (histories smallCore quietModules).run (smallInit, {})
        (storeAndLoad ++ smallCycles 8) = some reached ∧
      renamedDestinations reached.1.rob ≠ [] ∧
      (reached.1.regAllocator.freeRegisters ++
        RegisterAllocator.archRegisters.filterMap reached.1.regAllocator.backendRat ++
          renamedDestinations reached.1.rob).Perm (List.range smallCore.registerFileSize) ∧
      (∀ reg phys, reached.1.regAllocator.frontendRat reg = some phys →
        phys ∉ reached.1.regAllocator.freeRegisters) ∧
      (∀ beyond, (reached.1.scheduleInstruction smallCore beyond).isSome = true) ∧
      ∃ next freed, reached.1.retireRob smallCore = some next ∧
        next.regAllocator.freeRegisters = reached.1.regAllocator.freeRegisters ++ freed ∧
          (reached.1.regAllocator.freeRegisters ++ freed).Nodup := by
  have scheduled : ((histories smallCore quietModules).run (smallInit, {})
      (storeAndLoad ++ smallCycles 8)).any (fun reached =>
        decide (renamedDestinations reached.1.rob ≠ [])) = true := by
    decide +kernel
  obtain ⟨reached, ran, present⟩ := (Option.any_eq_true _ _).mp scheduled
  exact ⟨reached, ran, of_decide_eq_true present, O3Cpu.histories_registersPlaced smallCore
    quietModules smallBus smallBus () _ reached ran⟩

end ChampSim.Core

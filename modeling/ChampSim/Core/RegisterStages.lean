/-
The renamed registers of the reorder buffer after each stage.

Instructions are scheduled in program order, because the ready times of those
that wait do not decrease. So a register is renamed only when every older
instruction is renamed and no younger one is.
-/

import ChampSim.Core.Fresh
import ChampSim.Core.RenamedRob

set_option autoImplicit false

namespace ChampSim.Core

open Transition Cache

/-! ### The order of scheduling -/

/-- `limit` bounds the ready times of the instructions that wait. -/
structure ScheduleOrder (limit : Nat) (rob : List OooModelInstr) : Prop where
  inOrder : rob.Pairwise (fun earlier later => later.scheduled = true → earlier.scheduled = true)
  ready : rob.Pairwise (fun earlier later => earlier.scheduled = false →
    later.scheduled = false → earlier.readyTime ≤ later.readyTime)
  limited : ∀ instr ∈ rob, instr.scheduled = false → instr.readyTime ≤ limit
  executes : ∀ instr ∈ rob, instr.executed = true → instr.scheduled = true
  completes : ∀ instr ∈ rob, instr.completed = true → instr.executed = true

namespace ScheduleOrder

variable {limit : Nat} {rob others front back : List OooModelInstr} {instr : OooModelInstr}

theorem nil : ScheduleOrder limit [] := by
  refine ⟨List.Pairwise.nil, List.Pairwise.nil, ?_, ?_, ?_⟩
  · intro instr member
    cases member
  · intro instr member
    cases member
  · intro instr member
    cases member

theorem sublist (ordered : ScheduleOrder limit rob) (fewer : others.Sublist rob) :
    ScheduleOrder limit others :=
  ⟨ordered.inOrder.sublist fewer, ordered.ready.sublist fewer,
    fun instr member => ordered.limited instr (fewer.subset member),
    fun instr member => ordered.executes instr (fewer.subset member),
    fun instr member => ordered.completes instr (fewer.subset member)⟩

theorem raise (ordered : ScheduleOrder limit rob) {higher : Nat} (above : limit ≤ higher) :
    ScheduleOrder higher rob :=
  { ordered with
    limited := fun instr member waits => (ordered.limited instr member waits).trans above }

theorem changeOps (ordered : ScheduleOrder limit rob)
    (same : withoutOps others = withoutOps rob) : ScheduleOrder limit others := by
  have through : ∀ instrs, ScheduleOrder limit instrs ↔ ScheduleOrder limit (withoutOps instrs) := by
    intro instrs
    unfold withoutOps
    constructor
    · intro holds
      exact ⟨List.pairwise_map.mpr holds.inOrder, List.pairwise_map.mpr holds.ready,
        List.forall_mem_map.mpr holds.limited, List.forall_mem_map.mpr holds.executes,
        List.forall_mem_map.mpr holds.completes⟩
    · intro holds
      exact ⟨List.pairwise_map.mp holds.inOrder, List.pairwise_map.mp holds.ready,
        List.forall_mem_map.mp holds.limited, List.forall_mem_map.mp holds.executes,
        List.forall_mem_map.mp holds.completes⟩
  rw [through, same, ← through]
  exact ordered

theorem front_scheduled (ordered : ScheduleOrder limit (front ++ instr :: back))
    (scheduled : instr.scheduled = true) : ∀ earlier ∈ front, earlier.scheduled = true :=
  fun earlier member => (List.pairwise_append.mp ordered.inOrder).2.2 earlier member instr
    List.mem_cons_self scheduled

theorem back_waiting (ordered : ScheduleOrder limit (front ++ instr :: back))
    (waits : instr.scheduled = false) : ∀ later ∈ back, later.scheduled = false := by
  intro later member
  have pairs := (List.pairwise_append.mp ordered.inOrder).2.1
  cases scheduled : later.scheduled with
  | false => rfl
  | true =>
      have mine := (List.pairwise_cons.mp pairs).1 later member scheduled
      rw [waits] at mine
      cases mine

/-- An instruction that is or becomes scheduled behind scheduled ones changes. -/
theorem replace (ordered : ScheduleOrder limit (front ++ instr :: back)) (changed : OooModelInstr)
    (scheduled : changed.scheduled = true) (before : ∀ earlier ∈ front, earlier.scheduled = true)
    (completes : changed.completed = true → changed.executed = true) :
    ScheduleOrder limit (front ++ changed :: back) := by
  have every : ∀ condition : OooModelInstr → Prop, (∀ other ∈ front ++ instr :: back,
      condition other) → condition changed → ∀ other ∈ front ++ changed :: back,
        condition other := by
    intro condition all mine other member
    rcases List.mem_append.mp member with inFront | later
    · exact all other (List.mem_append_left _ inFront)
    · rcases List.mem_cons.mp later with isChanged | inBack
      · rw [isChanged]
        exact mine
      · exact all other (List.mem_append_right _ (List.mem_cons_of_mem _ inBack))
  have pairs := ordered.inOrder
  have times := ordered.ready
  rw [List.pairwise_append, List.pairwise_cons] at pairs times
  refine ⟨?_, ?_, ?_, ?_, ?_⟩
  · rw [List.pairwise_append, List.pairwise_cons]
    refine ⟨pairs.1, ⟨fun _ _ _ => scheduled, pairs.2.1.2⟩, ?_⟩
    intro earlier member _later _among _done
    exact before earlier member
  · rw [List.pairwise_append, List.pairwise_cons]
    refine ⟨times.1, ⟨?_, times.2.1.2⟩, ?_⟩
    · intro later _member waits
      rw [scheduled] at waits
      cases waits
    · intro earlier member later _among waits
      rw [before earlier member] at waits
      cases waits
  · apply every _ ordered.limited
    intro waits
    rw [scheduled] at waits
    cases waits
  · exact every _ ordered.executes (fun _ => scheduled)
  · exact every _ ordered.completes completes

theorem enter (ordered : ScheduleOrder limit rob) (waits : instr.scheduled = false)
    (unexecuted : instr.executed = false) (uncompleted : instr.completed = false)
    (time : instr.readyTime = limit) : ScheduleOrder limit (rob ++ [instr]) := by
  have every : ∀ condition : OooModelInstr → Prop, (∀ other ∈ rob, condition other) →
      condition instr → ∀ other ∈ rob ++ [instr], condition other := by
    intro condition all mine other member
    rcases List.mem_append.mp member with older | newest
    · exact all other older
    · rw [List.mem_singleton.mp newest]
      exact mine
  refine ⟨?_, ?_, ?_, ?_, ?_⟩
  · rw [List.pairwise_append]
    refine ⟨ordered.inOrder, List.pairwise_singleton _ _, ?_⟩
    intro earlier _member later newest scheduled
    rw [List.mem_singleton.mp newest, waits] at scheduled
    cases scheduled
  · rw [List.pairwise_append]
    refine ⟨ordered.ready, List.pairwise_singleton _ _, ?_⟩
    intro earlier member later newest earlierWaits _laterWaits
    rw [List.mem_singleton.mp newest, time]
    exact ordered.limited earlier member earlierWaits
  · exact every _ ordered.limited (fun _ => Nat.le_of_eq time)
  · apply every _ ordered.executes
    intro executed
    rw [unexecuted] at executed
    cases executed
  · apply every _ ordered.completes
    intro completed
    rw [uncompleted] at completed
    cases completed

end ScheduleOrder

/-! ### Retirement of several instructions -/

namespace Tracked

variable {size : Nat} {gone : List Registers} {rest : List OooModelInstr}
  {alloc : RegisterAllocator} {entries : List RobEntry}

theorem retireAll (leaving : List OooModelInstr)
    (tracked : Tracked size gone (leaving ++ rest) alloc entries)
    (scheduled : ∀ instr ∈ leaving, instr.scheduled = true) :
    ∃ next left others, entries = left ++ others ∧
      left.map (fun entry => entry.dispatched.instrId) = ids leaving ∧
        leaving.foldlM O3Cpu.retireRegisters alloc = some next ∧
          Tracked size (gone ++ left.map RobEntry.dispatched) rest next others ∧
            ∃ freed, next.freeRegisters = alloc.freeRegisters ++ freed := by
  induction leaving generalizing gone alloc entries with
  | nil =>
      refine ⟨alloc, [], entries, rfl, rfl, rfl, ?_, [], (List.append_nil _).symm⟩
      rw [List.map_nil, List.append_nil]
      exact tracked
  | cons instr others ih =>
      obtain ⟨middle, entry, entriesLeft, isFirst, sameId, first, kept, freed, free⟩ :=
        tracked.retire (scheduled instr List.mem_cons_self)
      obtain ⟨last, left, remaining, same, sameIds, retires, done, more, added⟩ := ih kept
        (fun other member => scheduled other (List.mem_cons_of_mem instr member))
      refine ⟨last, entry :: left, remaining, ?_, ?_, ?_, ?_, freed ++ more, ?_⟩
      · rw [isFirst, same, List.cons_append]
      · unfold ids at sameIds ⊢
        rw [List.map_cons, List.map_cons, sameId, sameIds]
      · rw [List.foldlM_cons, first]
        exact retires
      · rw [List.map_cons, List.append_cons]
        exact done
      · rw [added, free, List.append_assoc]

end Tracked

theorem OooModelInstr.withoutOps_same {instr other : OooModelInstr}
    (same : instr.withoutOps = other.withoutOps) :
    instr.scheduled = other.scheduled ∧ instr.executed = other.executed ∧
      instr.completed = other.completed ∧ instr.registers = other.registers := by
  have scheduled := congrArg OooModelInstr.scheduled same
  have executed := congrArg OooModelInstr.executed same
  have completed := congrArg OooModelInstr.completed same
  have registers := congrArg OooModelInstr.registers same
  exact ⟨scheduled, executed, completed, registers⟩

/-! ### Stages -/

namespace O3Cpu

variable {Module : Type} (config : Config) (hooks : CoreModules Module)

/-- `gone` are the registers of the instructions that have retired. -/
structure RegistersKept (state : O3Cpu Module) (gone : List Registers)
    (entries : List RobEntry) : Prop where
  tracked : Tracked config.registerFileSize gone state.rob state.regAllocator entries
  ordered : ScheduleOrder (state.currentTime + state.latency config.schedulingLatency) state.rob

variable {config} {state : O3Cpu Module} {gone : List Registers} {entries : List RobEntry}

theorem RegistersKept.retireRob (kept : state.RegistersKept config gone entries) :
    ∃ next left others, state.retireRob config = some next ∧ entries = left ++ others ∧
      left.map (fun entry => entry.dispatched.instrId) = ids (state.retiring config) ∧
        next.RegistersKept config (gone ++ left.map RobEntry.dispatched) others ∧
          ∃ freed, next.regAllocator.freeRegisters =
            state.regAllocator.freeRegisters ++ freed := by
  have split : state.retiring config ++ state.rob.drop (state.retiring config).length =
      state.rob := Queue.span_append_beyond config.retireWidth _ state.rob
  have scheduled : ∀ instr ∈ state.retiring config, instr.scheduled = true := by
    intro instr member
    have inRob : instr ∈ state.rob :=
      (Queue.span_isPrefix config.retireWidth _ state.rob).subset member
    have completed := Queue.span_holds config.retireWidth _ state.rob instr member
    exact kept.ordered.executes instr inRob (kept.ordered.completes instr inRob completed)
  have tracked := kept.tracked
  rw [← split] at tracked
  obtain ⟨alloc, left, others, same, sameIds, retires, done, freed⟩ :=
    tracked.retireAll (state.retiring config) scheduled
  refine ⟨_, left, others, congrArg (Option.map _) retires, same, sameIds, ⟨done, ?_⟩, freed⟩
  exact kept.ordered.sublist (List.drop_sublist _ _)

theorem RegistersKept.completeInflightInstruction
    (kept : state.RegistersKept config gone entries) :
    ∃ next others, state.completeInflightInstruction config = some next ∧
      next.RegistersKept config gone others ∧
        others.map RobEntry.dispatched = entries.map RobEntry.dispatched := by
  obtain ⟨result, swept, others, tracked, same, ordered⟩ := Queue.sweep_succeeds
    (completeVisit state.currentTime (state.currentTime + config.branchMispredictPenalty))
    (fun rob (completing : Completing) => ∃ others,
      Tracked config.registerFileSize gone rob completing.regAllocator others ∧
        others.map RobEntry.dispatched = entries.map RobEntry.dispatched ∧
          ScheduleOrder (state.currentTime + state.latency config.schedulingLatency) rob)
    (by
      rintro front instr rest completing ⟨others, tracked, same, ordered⟩
      unfold completeVisit
      split
      · rename_i ready
        have scheduled := ordered.executes instr
          (List.mem_append_right _ List.mem_cons_self) ready.2.1
        obtain ⟨alloc, changed, completes, done, unchanged⟩ := tracked.complete scheduled
        refine ⟨_, _, congrArg (Option.map _) completes, changed, done, unchanged.trans same, ?_⟩
        exact ordered.replace _ scheduled (ordered.front_scheduled scheduled)
          (fun _ => ready.2.1)
      · exact ⟨instr, completing, rfl, others, tracked, same, ordered⟩)
    [] state.rob
    { bandwidth := config.execWidth
      regAllocator := state.regAllocator
      fetchResumeTime := state.fetchResumeTime } ⟨entries, kept.tracked, rfl, kept.ordered⟩
  exact ⟨_, others, congrArg (Option.map _) swept, ⟨tracked, ordered⟩, same⟩

theorem sourcesValid_isSome {size : Nat} {front rest : List OooModelInstr} {instr : OooModelInstr}
    {alloc : RegisterAllocator} (tracked : Tracked size gone (front ++ instr :: rest) alloc entries)
    (scheduled : instr.scheduled = true) :
    ∃ ready, sourcesValid alloc instr.sourceRegisters = some ready := by
  obtain ⟨entriesFront, entry, entriesBack, same, _inFront, mine, _inBack⟩ := tracked.split
  obtain ⟨sources, destinations, isRenamed, sourceRegs, _destinationRegs⟩ :=
    Tracked.renamed_entry mine scheduled
  subst isRenamed same
  obtain ⟨renamed, reads, _arch⟩ := tracked.state
  have found := ((reads_append _ _ _ _).mp reads).2.1
  rw [← sourceRegs]
  have within : ∀ phys ∈ sources.map Prod.snd, phys < alloc.physicalRegisterFile.length := by
    intro phys member
    obtain ⟨read, among, isPhys⟩ := List.mem_map.mp member
    rw [← isPhys]
    apply renamed.held_within
    apply renamed.latest_held ?_ (found read among)
    rw [versions_pendingWrites, pendingVersions_append]
    exact List.subset_append_left _ _
  revert within
  generalize sources.map Prod.snd = physRegs
  intro within
  induction physRegs with
  | nil => exact ⟨true, rfl⟩
  | cons phys others ih =>
      obtain ⟨later, succeeds⟩ := ih
        (fun other member => within other (List.mem_cons_of_mem phys member))
      unfold sourcesValid RegisterAllocator.isValid
      rw [List.getElem?_eq_getElem (within phys List.mem_cons_self), Option.map_some,
        Option.bind_some]
      split
      · exact ⟨later, succeeds⟩
      · exact ⟨false, rfl⟩

theorem RegistersKept.executeInstruction (kept : state.RegistersKept config gone entries) :
    ∃ next, state.executeInstruction config = some next ∧
      next.RegistersKept config gone entries := by
  obtain ⟨result, swept, tracked, ordered⟩ := Queue.sweep_succeeds
    (executeVisit state.regAllocator state.currentTime
      (state.currentTime + state.latency config.execLatency))
    (fun rob (_executing : Executing) =>
      Tracked config.registerFileSize gone rob state.regAllocator entries ∧
        ScheduleOrder (state.currentTime + state.latency config.schedulingLatency) rob)
    (by
      rintro front instr rest executing ⟨tracked, ordered⟩
      unfold executeVisit
      split
      · rename_i waits
        have scheduled := waits.2.1
        obtain ⟨ready, succeeds⟩ := sourcesValid_isSome tracked scheduled
        rw [succeeds, Option.map_some]
        cases ready with
        | false => exact ⟨instr, executing, rfl, tracked, ordered⟩
        | true =>
            refine ⟨_, _, rfl, ⟨?_, tracked.state⟩, ?_⟩
            · rw [tracked.shown, List.map_append, List.map_append, List.map_cons, List.map_cons]
              rfl
            · exact ordered.replace _ scheduled (ordered.front_scheduled scheduled)
                (fun _ => rfl)
      · exact ⟨instr, executing, rfl, tracked, ordered⟩)
    [] state.rob { bandwidth := config.execWidth, lq := state.lq, sq := state.sq }
    ⟨kept.tracked, kept.ordered⟩
  exact ⟨_, congrArg (Option.map _) swept, ⟨tracked, ordered⟩⟩

theorem sourcesToAllocate_eq (beyond : RegisterAllocator → Nat → Bool) (alloc : RegisterAllocator)
    (instr : OooModelInstr) (arch : instr.registers.Arch) :
    sourcesToAllocate beyond alloc instr =
      RegisterAllocator.Renamed.unmappedCount alloc instr.sourceRegisters := by
  apply List.countP_congr
  intro reg member
  unfold RegisterAllocator.isAllocated
  rw [if_pos (arch.1 reg member)]
  cases alloc.frontendRat reg with
  | none => exact Iff.rfl
  | some phys => exact Iff.rfl

/-- What scheduling keeps of the instructions it has visited and of the others. -/
structure Scheduling (config : Config) (gone : List Registers) (entries : List RobEntry)
    (time limit : Nat) (front rest : List OooModelInstr) (search : Nat × RegisterAllocator) :
    Prop where
  tracked : ∃ others, Tracked config.registerFileSize gone (front ++ rest) search.2 others ∧
    others.map RobEntry.dispatched = entries.map RobEntry.dispatched
  ordered : ScheduleOrder limit (front ++ rest)
  passed : search.1 ≠ 0 → ∀ instr ∈ front, instr.scheduled = true ∨ time < instr.readyTime

namespace Scheduling

variable {time limit bandwidth : Nat} {front rest : List OooModelInstr} {instr : OooModelInstr}
  {search : Nat × RegisterAllocator}

/-- An instruction that is left as it is was scheduled, is not ready, or ended the search. -/
theorem pass (holds : Scheduling config gone entries time limit front (instr :: rest) search)
    (searched : bandwidth ≠ 0 → search.1 ≠ 0)
    (left : instr.scheduled = true ∨ time < instr.readyTime ∨ bandwidth = 0) :
    Scheduling config gone entries time limit (front ++ [instr]) rest (bandwidth, search.2) := by
  obtain ⟨tracked, ordered, passed⟩ := holds
  rw [List.append_cons] at tracked ordered
  refine ⟨tracked, ordered, ?_⟩
  intro remains other member
  rcases List.mem_append.mp member with inFront | isInstr
  · exact passed (searched remains) other inFront
  · rw [List.mem_singleton.mp isInstr]
    rcases left with scheduled | later | none
    · exact Or.inl scheduled
    · exact Or.inr later
    · exact absurd none remains

theorem front_scheduled
    (holds : Scheduling config gone entries time limit front (instr :: rest) search)
    (remains : search.1 ≠ 0) (waits : instr.scheduled = false)
    (ready : instr.isReady time = true) : ∀ earlier ∈ front, earlier.scheduled = true := by
  intro earlier member
  rcases holds.passed remains earlier member with scheduled | later
  · exact scheduled
  · cases scheduled : earlier.scheduled with
    | true => rfl
    | false =>
        have sooner := (List.pairwise_append.mp holds.ordered.ready).2.2 earlier member
          instr List.mem_cons_self scheduled waits
        have now := of_decide_eq_true ready
        omega

/-- An instruction that waits is renamed when there are registers for it. -/
theorem schedule (beyond : RegisterAllocator → Nat → Bool)
    (holds : Scheduling config gone entries time limit front (instr :: rest) search)
    (remains : search.1 ≠ 0) (waits : instr.scheduled = false) (ready : instr.isReady time = true)
    (enough : ¬search.2.countFreeRegisters <
      sourcesToAllocate beyond search.2 instr + instr.destinationRegisters.length) :
    ∃ scheduled alloc, doScheduling search.2 instr = some (scheduled, alloc) ∧
      ∀ left, Scheduling config gone entries time limit (front ++ [scheduled]) rest (left, alloc) := by
  have before := holds.front_scheduled remains waits ready
  obtain ⟨⟨others, tracked, same⟩, ordered, passed⟩ := holds
  have arch := tracked.waiting_arch waits
  rw [sourcesToAllocate_eq beyond search.2 instr arch] at enough
  obtain ⟨sources, destinations, next, changed, schedules, done, unchanged⟩ :=
    tracked.schedule waits (ordered.back_waiting waits) (Nat.not_lt.mp enough)
  have after := ordered.replace
    { instr with
      sourceRegisters := sources
      destinationRegisters := destinations
      scheduled := true } rfl before
    (ordered.completes instr (List.mem_append_right _ List.mem_cons_self))
  rw [List.append_cons] at done after
  refine ⟨_, next, schedules, ?_⟩
  intro left
  refine ⟨⟨changed, done, unchanged.trans same⟩, after, ?_⟩
  intro _remaining other member
  rcases List.mem_append.mp member with inFront | isInstr
  · exact passed remains other inFront
  · rw [List.mem_singleton.mp isInstr]
    exact Or.inl rfl

theorem visit (beyond : RegisterAllocator → Nat → Bool)
    (holds : Scheduling config gone entries time limit front (instr :: rest) search) :
    ∃ visited next, scheduleVisit beyond time search instr = some (visited, next) ∧
      Scheduling config gone entries time limit (front ++ [visited]) rest next := by
  unfold scheduleVisit
  split
  · rename_i nothing
    exact ⟨instr, search, rfl, holds.pass id (Or.inr (Or.inr nothing))⟩
  · rename_i remains
    split
    · exact ⟨instr, (0, search.2), rfl, holds.pass (absurd rfl) (Or.inr (Or.inr rfl))⟩
    · rename_i enough
      cases waits : instr.scheduled with
      | true =>
          rw [if_neg (by simp), Option.map_some]
          exact ⟨instr, _, rfl, holds.pass (fun _ => remains) (Or.inl waits)⟩
      | false =>
          by_cases ready : instr.isReady time = true
          · obtain ⟨scheduled, alloc, schedules, after⟩ :=
              holds.schedule beyond remains waits ready enough
            rw [if_pos (by rw [ready]; rfl), schedules, Option.map_some]
            exact ⟨scheduled, _, rfl, after _⟩
          · have later : time < instr.readyTime := by
              have fails : ¬ instr.readyTime ≤ time := fun now => ready (decide_eq_true now)
              omega
            rw [if_neg (by rw [Bool.eq_false_iff.mpr ready]; simp), Option.map_some]
            exact ⟨instr, _, rfl, holds.pass (fun _ => remains) (Or.inr (Or.inl later))⟩

end Scheduling

theorem RegistersKept.scheduleInstruction (kept : state.RegistersKept config gone entries)
    (beyond : RegisterAllocator → Nat → Bool) :
    ∃ next others, state.scheduleInstruction config beyond = some next ∧
      next.RegistersKept config gone others ∧
        others.map RobEntry.dispatched = entries.map RobEntry.dispatched := by
  obtain ⟨result, swept, ⟨others, tracked, same⟩, ordered, _passed⟩ := Queue.sweep_passes
    (scheduleVisit beyond state.currentTime)
    (Scheduling config gone entries state.currentTime
      (state.currentTime + state.latency config.schedulingLatency))
    (fun _front _instr _rest _search holds => holds.visit beyond)
    [] state.rob (config.schedulerSize, state.regAllocator)
    ⟨⟨entries, kept.tracked, rfl⟩, kept.ordered, fun _ instr member => by cases member⟩
  rw [List.append_nil] at tracked ordered
  exact ⟨_, others, congrArg (Option.map _) swept, ⟨tracked, ordered⟩, same⟩

/-- The memory stages change the counts of complete operations, and nothing else. -/
theorem RegistersKept.changeOps (kept : state.RegistersKept config gone entries)
    (next : O3Cpu Module) (same : withoutOps next.rob = withoutOps state.rob)
    (alloc : next.regAllocator = state.regAllocator) (time : next.currentTime = state.currentTime)
    (warmup : next.warmup = state.warmup) : next.RegistersKept config gone entries := by
  have views : next.rob.map OooModelInstr.view = state.rob.map OooModelInstr.view := by
    have through : ∀ rob : List OooModelInstr,
        rob.map OooModelInstr.view = (withoutOps rob).map OooModelInstr.view := by
      intro rob
      unfold withoutOps
      rw [List.map_map]
      rfl
    rw [through, same, ← through]
  constructor
  · rw [alloc]
    exact ⟨kept.tracked.shown.trans views.symm, kept.tracked.state⟩
  · unfold latency
    rw [time, warmup]
    exact kept.ordered.changeOps same

theorem RegistersKept.dispatchFront (kept : state.RegistersKept config gone entries)
    (fresh : state.Undispatched) (instr : OooModelInstr) (rest : List OooModelInstr)
    (front : state.dispatchBuffer = instr :: rest) (next : O3Cpu Module)
    (ran : state.dispatchFront config instr rest = some next) :
    ∃ newest, next.rob = state.rob ++ [newest] ∧
      next.RegistersKept config gone (entries ++ [.waiting newest.registers]) := by
  obtain ⟨schedule, scheduled, same⟩ := Option.map_eq_some_iff.mp ran
  subst same
  have shape := doMemoryScheduling_withoutOps _ schedule scheduled
  have waiting := fresh.dispatch
  rw [front] at waiting
  obtain ⟨flags, sources, destinations⟩ := waiting instr List.mem_cons_self
  have newFlags := OooModelInstr.withoutOps_same shape
  refine ⟨_, rfl, ?_, ?_⟩
  · apply kept.tracked.dispatch
    · exact ⟨newFlags.1.trans flags.1, newFlags.2.2.1.trans flags.2.2.1⟩
    · change schedule.instr.registers.Arch
      rw [newFlags.2.2.2]
      exact ⟨sources, destinations⟩
  · exact kept.ordered.enter (newFlags.1.trans flags.1) (newFlags.2.1.trans flags.2.1)
      (newFlags.2.2.1.trans flags.2.2.1) rfl

theorem RegistersKept.dispatchLoop {history : History} (bandwidth : Nat)
    (kept : state.RegistersKept config gone entries)
    (inOrder : InOrder config state.order history) (fresh : state.Undispatched)
    (next : O3Cpu Module) (ran : dispatchLoop config bandwidth state = some next) :
    ∃ added, next.rob = state.rob ++ added ∧ next.RegistersKept config gone
      (entries ++ added.map (fun instr => .waiting instr.registers)) := by
  induction bandwidth generalizing state entries with
  | zero =>
      cases ran
      refine ⟨[], (List.append_nil _).symm, ?_⟩
      rw [List.map_nil, List.append_nil]
      exact kept
  | succ bandwidth ih =>
      unfold O3Cpu.dispatchLoop at ran
      split at ran
      · cases ran
        refine ⟨[], (List.append_nil _).symm, ?_⟩
        rw [List.map_nil, List.append_nil]
        exact kept
      · rename_i instr rest front
        split at ran
        · rename_i allowed
          obtain ⟨middle, first, remaining⟩ := Option.bind_eq_some_iff.mp ran
          obtain ⟨newest, entered, after⟩ :=
            kept.dispatchFront fresh instr rest front middle first
          obtain ⟨added, grown, done⟩ := ih after
            (dispatchFront_inOrder config state middle instr rest inOrder front allowed first)
            (dispatchFront_undispatched config state middle instr rest fresh front first)
            remaining
          refine ⟨newest :: added, ?_, ?_⟩
          · rw [grown, entered, ← List.append_cons]
          · rw [List.map_cons, List.append_cons]
            exact done
        · cases ran
          refine ⟨[], (List.append_nil _).symm, ?_⟩
          rw [List.map_nil, List.append_nil]
          exact kept

end O3Cpu

end ChampSim.Core

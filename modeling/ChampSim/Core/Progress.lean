/-
What the stages of a core return: how much each of them has moved.

A stage that returns zero has left the core as it was, so a cycle without
progress is one in which nothing but the clock and the read of new
instructions, which is not counted, can have changed the core.
-/

import ChampSim.Core.StageFrames

set_option autoImplicit false

namespace ChampSim.Core

open Transition Cache

namespace O3Cpu

variable {Module : Type} (config : Config) (hooks : CoreModules Module)

/-! ### What is counted -/

def completeProgress (state : O3Cpu Module) : Int :=
  (Queue.sweep
    (completeVisit state.currentTime (state.currentTime + config.branchMispredictPenalty))
    { bandwidth := config.execWidth
      regAllocator := state.regAllocator
      fetchResumeTime := state.fetchResumeTime } state.rob).elim 0
        fun swept => config.execWidth - swept.2.bandwidth

def executeProgress (state : O3Cpu Module) : Int :=
  (Queue.sweep
    (executeVisit state.regAllocator state.currentTime
      (state.currentTime + state.latency config.execLatency))
    { bandwidth := config.execWidth, lq := state.lq, sq := state.sq } state.rob).elim 0
      fun swept => config.execWidth - swept.2.bandwidth

/-- A turn of the search that counts the instructions it schedules. -/
def scheduleCount (beyond : RegisterAllocator → Nat → Bool) (time : Nat)
    (search : (Nat × RegisterAllocator) × Int) (instr : OooModelInstr) :
    Option (OooModelInstr × ((Nat × RegisterAllocator) × Int)) :=
  (scheduleVisit beyond time search.1 instr).map fun (visited, next) =>
    (visited, (next, if visited.scheduled && !instr.scheduled then search.2 + 1 else search.2))

def scheduleProgress (beyond : RegisterAllocator → Nat → Bool) (state : O3Cpu Module) : Int :=
  (Queue.sweep (scheduleCount beyond state.currentTime)
    ((config.schedulerSize, state.regAllocator), 0) state.rob).elim 0 fun swept => swept.2.2

/-- What the loop over the responses of the instruction cache counts: the
instructions it completes and the responses it removes. -/
def returnedProgress : Nat → Nat → List Response → List OooModelInstr → Int
  | 0, _, _, _ => 0
  | _ + 1, _, [], _ => 0
  | l1iBandwidth + 1, fetchBandwidth, entry :: rest, buffer =>
      if fetchBandwidth = 0 then 0
      else
        let serviced := serviceDependents config entry.vAddress fetchBandwidth
          entry.instrDependOnMe buffer
        (fetchBandwidth - serviced.1) +
          (if serviced.2.1.isEmpty then
            1 + returnedProgress l1iBandwidth serviced.1 rest serviced.2.2
          else 0)

/-- What the loop over the responses of the data cache counts: the responses and
the loads that they finish. -/
def finishedProgress (state : O3Cpu Module) : Int :=
  (state.l1dBus.returned.take config.l1dBandwidth).length +
    (((state.l1dBus.returned.take config.l1dBandwidth).foldlM (finishLoads config)
      (state.rob, state.lq)).elim (0 : Int)
        fun finished => state.lq.countP Option.isSome - finished.2.countP Option.isSome)

def memoryProgress (state : O3Cpu Module) : Int :=
  returnedProgress config config.l1iBandwidth config.fetchWidth state.l1iBus.returned
    state.ifetchBuffer + state.finishedProgress config

/-- The stores that finish or leave the queue, and the loads that are issued. -/
def lsqProgress (state : O3Cpu Module) : Int :=
  let issued := state.sq.takeWhile (fun entry => entry.fetchIssued)
  let unfetched := state.sq.dropWhile (fun entry => entry.fetchIssued)
  let finishing := state.finishing config
  let finished := finishing.map
    (fun entry => { entry with fetchIssued := true, readyTime := some state.currentTime })
  let stores := issued ++ finished ++ unfetched.drop finishing.length
  let completed := completeStores config
    (fun entry => isRetired state.rob entry &&
      entry.readyTime.any (fun ready => decide (ready ≤ state.currentTime)))
    (config.sqWidth - finishing.length) state.l1dBus stores
  finishing.length + ((stores.length : Int) - completed.1.length) +
    ((finishing.foldlM doFinishStore (state.rob, state.lq)).bind fun memory =>
      Queue.sweep (issueLoad config state.currentTime) (config.lqWidth, completed.2) memory.2).elim
        (0 : Int) fun loaded => config.lqWidth - loaded.2.1

def dispatchProgress (state : O3Cpu Module) : Int :=
  (state.dispatchInstruction config).elim 0 fun next =>
    state.dispatchBuffer.length - next.dispatchBuffer.length

def decodeProgress (state : O3Cpu Module) : Int :=
  (state.selectDecodes config).dibHits.length + (state.selectDecodes config).decodes.length

def promoteProgress (state : O3Cpu Module) : Int :=
  (state.promoteToDecode config).elim 0 fun next =>
    state.ifetchBuffer.length - next.ifetchBuffer.length

def fetchProgress : Nat → Channel → List OooModelInstr → Int
  | 0, _, _ => 0
  | bandwidth + 1, bus, buffer =>
      match buffer.dropWhile (fun instr => !instr.fetchReady) with
      | [] => 0
      | first :: rest =>
          let group := first :: rest.takeWhile (sameBlock config first)
          let issued := doFetchInstruction config bus first group
          (if issued.isSome then 1 else 0) +
            fetchProgress bandwidth (issued.getD bus) (rest.dropWhile (sameBlock config first))

def checkProgress (state : O3Cpu Module) : Int :=
  ((state.ifetchBuffer.dropWhile (fun instr => instr.dibChecked)).take config.fetchWidth).length

def stageProgress (state : O3Cpu Module) : Stage → Int
  | .retireRob => (state.retiring config).length
  | .completeInflightInstruction => state.completeProgress config
  | .executeInstruction => state.executeProgress config
  | .scheduleInstruction beyond => state.scheduleProgress config beyond
  | .handleMemoryReturn => state.memoryProgress config
  | .operateLsq => state.lsqProgress config
  | .dispatchInstruction => state.dispatchProgress config
  | .decodeInstruction => state.decodeProgress config
  | .promoteToDecode => state.promoteProgress config
  | .fetchInstruction =>
      fetchProgress config config.l1iBandwidth state.l1iBus state.ifetchBuffer
  | .checkDib => state.checkProgress config
  | .initializeInstruction => 0

/-- The stages of a cycle with the sum of what they return. -/
def runCounting : List Stage → O3Cpu Module → Option (Int × O3Cpu Module)
  | [], state => some (0, state)
  | stage :: rest, state =>
      (state.runStage config hooks stage).bind fun next =>
        (runCounting rest next).map fun (more, last) =>
          (state.stageProgress config stage + more, last)

/-- What `_operate` does before it calls `operate`. -/
def tick (state : O3Cpu Module) : O3Cpu Module :=
  { state with currentTime := state.currentTime + config.clockPeriod }

/-- `O3_CPU::operate`. -/
def operate (beyond : RegisterAllocator → Nat → Bool) (state : O3Cpu Module) :
    Option (Int × O3Cpu Module) :=
  state.runCounting config hooks (operateStages beyond)

theorem runCounting_run (stages : List Stage) (state : O3Cpu Module) :
    (state.runCounting config hooks stages).map Prod.snd =
      (Core.stages config hooks).run state (stages.map Step.stage) := by
  induction stages generalizing state with
  | nil => rfl
  | cons stage rest ih =>
      unfold runCounting
      rw [List.map_cons, Machine.run_cons, Option.map_bind]
      apply congrArg
      funext next
      rw [← ih next, Function.comp_apply, Option.map_map]
      rfl

/-- The cycle that counts goes the way of the one that the runs of a core take. -/
theorem operate_run (beyond : RegisterAllocator → Nat → Bool) (state : O3Cpu Module) :
    ((state.tick config).operate config hooks beyond).map Prod.snd =
      (Core.stages config hooks).run state (Core.operate beyond) :=
  runCounting_run config hooks (operateStages beyond) _

theorem operate_stages {config : Config} {hooks : CoreModules Module}
    {beyond : RegisterAllocator → Nat → Bool} {state next : O3Cpu Module} {progress : Int}
    (ran : state.operate config hooks beyond = some (progress, next)) :
    (Core.stages config hooks).run state ((operateStages beyond).map Step.stage) = some next := by
  rw [← runCounting_run]
  exact Option.map_eq_some_iff.mpr ⟨(progress, next), ran, rfl⟩

/-! ### A stage without progress -/

def Moved (state : O3Cpu Module) (progress : Int) (next : O3Cpu Module) : Prop :=
  (progress = 0 ∧ next = state) ∨ 0 < progress

variable {state next : O3Cpu Module}

theorem complete_moved (ran : state.completeInflightInstruction config = some next) :
    Moved state (state.completeProgress config) next := by
  obtain ⟨⟨rob, completing⟩, swept, same⟩ := Option.map_eq_some_iff.mp ran
  unfold completeProgress
  rw [swept]
  have still := Queue.sweep_idle
    (completeVisit state.currentTime (state.currentTime + config.branchMispredictPenalty))
    (fun completing => -(completing.bandwidth : Int)) id (by
      intro completing instr visited after visit
      unfold completeVisit at visit
      split at visit
      · rename_i ready
        obtain ⟨alloc, _completes, same⟩ := Option.map_eq_some_iff.mp visit
        cases same
        refine Or.inr ?_
        change -(completing.bandwidth : Int) < -((completing.bandwidth - 1 : Nat) : Int)
        omega
      · cases visit
        exact Or.inl ⟨rfl, rfl, rfl⟩) state.rob _ (rob, completing) swept
  rcases still with ⟨unchanged, kept, _⟩ | further
  · change rob = state.rob at unchanged
    change completing = _ at kept
    subst unchanged kept
    exact Or.inl ⟨Int.sub_self _, same.symm⟩
  · change -(config.execWidth : Int) < -(completing.bandwidth : Int) at further
    refine Or.inr ?_
    change 0 < (config.execWidth : Int) - completing.bandwidth
    omega

theorem execute_moved (ran : state.executeInstruction config = some next) :
    Moved state (state.executeProgress config) next := by
  obtain ⟨⟨rob, executing⟩, swept, same⟩ := Option.map_eq_some_iff.mp ran
  unfold executeProgress
  rw [swept]
  have still := Queue.sweep_idle
    (executeVisit state.regAllocator state.currentTime
      (state.currentTime + state.latency config.execLatency))
    (fun executing => -(executing.bandwidth : Int)) id (by
      intro executing instr visited after visit
      unfold executeVisit at visit
      split at visit
      · rename_i ready
        obtain ⟨valid, _valid, same⟩ := Option.map_eq_some_iff.mp visit
        cases valid with
        | true =>
            cases same
            refine Or.inr ?_
            change -(executing.bandwidth : Int) < -((executing.bandwidth - 1 : Nat) : Int)
            omega
        | false =>
            cases same
            exact Or.inl ⟨rfl, rfl, rfl⟩
      · cases visit
        exact Or.inl ⟨rfl, rfl, rfl⟩) state.rob _ (rob, executing) swept
  rcases still with ⟨unchanged, kept, _⟩ | further
  · change rob = state.rob at unchanged
    change executing = _ at kept
    subst unchanged kept
    exact Or.inl ⟨Int.sub_self _, same.symm⟩
  · change -(config.execWidth : Int) < -(executing.bandwidth : Int) at further
    refine Or.inr ?_
    change 0 < (config.execWidth : Int) - executing.bandwidth
    omega

theorem scheduleCount_sweep (beyond : RegisterAllocator → Nat → Bool) (time : Nat)
    (rob : List OooModelInstr) (search : Nat × RegisterAllocator) (count : Int) :
    (Queue.sweep (scheduleCount beyond time) (search, count) rob).map
        (fun swept => (swept.1, swept.2.1)) =
      Queue.sweep (scheduleVisit beyond time) search rob := by
  induction rob generalizing search count with
  | nil => rfl
  | cons instr rest ih =>
      rw [Queue.sweep_cons, Queue.sweep_cons, Option.map_bind]
      unfold scheduleCount
      rw [Option.bind_map]
      apply congrArg
      funext visited
      change ((Queue.sweep (scheduleCount beyond time) _ rest).map _).map _ = _
      rw [← ih visited.2, Option.map_map, Option.map_map]
      rfl

theorem schedule_moved (beyond : RegisterAllocator → Nat → Bool)
    (ran : state.scheduleInstruction config beyond = some next) :
    Moved state (state.scheduleProgress config beyond) next := by
  obtain ⟨⟨rob, search⟩, swept, same⟩ := Option.map_eq_some_iff.mp ran
  rw [← scheduleCount_sweep beyond state.currentTime state.rob _ 0] at swept
  obtain ⟨⟨counted, after, count⟩, counts, isSame⟩ := Option.map_eq_some_iff.mp swept
  cases isSame
  unfold scheduleProgress
  rw [counts]
  have still := Queue.sweep_idle (scheduleCount beyond state.currentTime)
    (fun search => search.2) (fun search => search.1.2) (by
      intro search instr visited after visit
      obtain ⟨⟨changed, later⟩, visits, same⟩ := Option.map_eq_some_iff.mp visit
      cases same
      have leaves : visited = instr → later.2 = search.1.2 →
          (visited = instr ∧ later.2 = search.1.2 ∧
            (if visited.scheduled && !instr.scheduled then search.2 + 1 else search.2) = search.2) ∨
          search.2 <
            (if visited.scheduled && !instr.scheduled then search.2 + 1 else search.2) := by
        intro unchanged kept
        refine Or.inl ⟨unchanged, kept, ?_⟩
        rw [unchanged, Bool.and_not_self]
        rfl
      unfold scheduleVisit at visits
      split at visits
      · cases visits
        exact leaves rfl rfl
      · split at visits
        · cases visits
          exact leaves rfl rfl
        · obtain ⟨⟨scheduled, alloc⟩, schedules, same⟩ := Option.map_eq_some_iff.mp visits
          cases same
          split at schedules
          · rename_i unscheduled
            obtain ⟨sources, destinations, shape⟩ :=
              doScheduling_shape _ alloc instr visited schedules
            have fresh := (Bool.and_eq_true_iff.mp unscheduled).1
            refine Or.inr ?_
            dsimp only
            rw [shape, fresh]
            exact Int.lt_succ _
          · cases schedules
            exact leaves rfl rfl) state.rob _ (counted, after, count) counts
  rcases still with ⟨unchanged, kept, none⟩ | further
  · change counted = state.rob at unchanged
    change after.2 = state.regAllocator at kept
    refine Or.inl ⟨none, ?_⟩
    rw [← same]
    dsimp only
    rw [unchanged, kept]
  · exact Or.inr further

theorem retire_moved (ran : state.retireRob config = some next) :
    Moved state (state.retiring config).length next := by
  unfold retireRob at ran
  cases retired : state.retiring config with
  | nil =>
      rw [retired] at ran
      exact Or.inl ⟨rfl, (Option.some.inj ran).symm⟩
  | cons instr rest => exact Or.inr (Int.ofNat_lt.mpr (Nat.succ_pos _))

/-! ### Memory returns -/

theorem serviceDependents_spends (vAddress : Address) (fetchBandwidth : Nat)
    (dependents : List Nat) (buffer : List OooModelInstr) :
    (serviceDependents config vAddress fetchBandwidth dependents buffer).1 ≤ fetchBandwidth ∧
      ((serviceDependents config vAddress fetchBandwidth dependents buffer).2.1 ≠ [] →
        (serviceDependents config vAddress fetchBandwidth dependents buffer).1 = 0) := by
  fun_induction serviceDependents config vAddress fetchBandwidth dependents buffer with
  | case1 => exact ⟨Nat.le_refl _, fun impossible => absurd rfl impossible⟩
  | case2 => exact ⟨Nat.le_refl _, fun _ => rfl⟩
  | case3 _ _ _ _ _ _ ih => exact ih
  | case4 bandwidth _ _ _ _ _ _ _ ih => exact ⟨Nat.le_succ_of_le ih.1, ih.2⟩
  | case5 _ _ _ _ _ _ _ _ ih => exact ih

theorem returnedProgress_nonneg (l1iBandwidth fetchBandwidth : Nat) (returned : List Response)
    (buffer : List OooModelInstr) :
    0 ≤ returnedProgress config l1iBandwidth fetchBandwidth returned buffer := by
  fun_induction returnedProgress config l1iBandwidth fetchBandwidth returned buffer with
  | case1 => exact Int.le_refl 0
  | case2 => exact Int.le_refl 0
  | case3 => exact Int.le_refl 0
  | case4 l1iBandwidth fetchBandwidth entry rest buffer some serviced ih =>
      have spent := (serviceDependents_spends config entry.vAddress fetchBandwidth
        entry.instrDependOnMe buffer).1
      change serviced.1 ≤ fetchBandwidth at spent
      split <;> omega

theorem serviceReturned_idle (l1iBandwidth fetchBandwidth : Nat) (returned : List Response)
    (buffer : List OooModelInstr)
    (idle : returnedProgress config l1iBandwidth fetchBandwidth returned buffer = 0) :
    serviceReturned config l1iBandwidth fetchBandwidth returned buffer = (returned, buffer) := by
  rcases l1iBandwidth with _ | l1iBandwidth
  · rfl
  · rcases returned with _ | ⟨entry, rest⟩
    · rfl
    · unfold returnedProgress at idle
      unfold serviceReturned
      split at idle
      · rename_i none
        rw [if_pos none]
      · rename_i some
        have spends := serviceDependents_spends config entry.vAddress fetchBandwidth
          entry.instrDependOnMe buffer
        dsimp only at idle
        split at idle
        · have more := returnedProgress_nonneg config l1iBandwidth
            (serviceDependents config entry.vAddress fetchBandwidth entry.instrDependOnMe buffer).1
            rest
            (serviceDependents config entry.vAddress fetchBandwidth entry.instrDependOnMe
              buffer).2.2
          omega
        · rename_i left
          have spent := spends.2 (fun empty => left (by rw [empty]; rfl))
          omega

theorem finishLoads_counts (response : Response)
    (memory next : List OooModelInstr × List (Option LsqEntry))
    (ran : finishLoads config memory response = some next) :
    next.2.countP Option.isSome ≤ memory.2.countP Option.isSome := by
  obtain ⟨⟨lq, rob⟩, swept, same⟩ := Option.map_eq_some_iff.mp ran
  subst same
  apply Queue.sweep_invariant (finishLoad config response.vAddress)
    (fun visited _ => visited.countP Option.isSome ≤ memory.2.countP Option.isSome) ?_ []
    memory.2 memory.1 (lq, rob) (Nat.le_refl _) swept
  intro front item rest reached visited after before step
  have fewer : (if visited.isSome = true then 1 else 0) ≤ if item.isSome = true then 1 else 0 := by
    unfold finishLoad at step
    split at step
    · cases step
      exact Nat.le_refl _
    · split at step
      · obtain ⟨finished, _finishes, same⟩ := Option.map_eq_some_iff.mp step
        cases same
        exact Nat.zero_le _
      · cases step
        exact Nat.le_refl _
  rw [List.countP_append, List.countP_cons] at before ⊢
  omega

theorem finishedProgress_nonneg (state : O3Cpu Module) :
    ((state.l1dBus.returned.take config.l1dBandwidth).length : Int) ≤
      state.finishedProgress config := by
  unfold finishedProgress
  cases finished : (state.l1dBus.returned.take config.l1dBandwidth).foldlM (finishLoads config)
      (state.rob, state.lq) with
  | none => exact Int.le_of_eq (Int.add_zero _).symm
  | some memory =>
      have fewer := Queue.foldlM_invariant (finishLoads config)
        (fun reached => reached.2.countP Option.isSome ≤ state.lq.countP Option.isSome) _
        (fun reached response _member later kept step =>
          Nat.le_trans (finishLoads_counts config response reached later step) kept)
        (state.rob, state.lq) memory (Nat.le_refl _) finished
      change _ ≤ _ + ((state.lq.countP Option.isSome : Int) - memory.2.countP Option.isSome)
      omega

theorem memoryReturn_moved (ran : state.handleMemoryReturn config = some next) :
    Moved state (state.memoryProgress config) next := by
  have fetched := returnedProgress_nonneg config config.l1iBandwidth config.fetchWidth
    state.l1iBus.returned state.ifetchBuffer
  have finished := finishedProgress_nonneg config state
  have nonneg : 0 ≤ state.memoryProgress config := by
    unfold memoryProgress
    omega
  rcases Int.lt_or_eq_of_le nonneg with moved | idle
  · exact Or.inr moved
  refine Or.inl ⟨idle.symm, ?_⟩
  unfold memoryProgress at idle
  have none : state.l1dBus.returned.take config.l1dBandwidth = [] := by
    apply List.eq_nil_of_length_eq_zero
    omega
  have serviced := serviceReturned_idle config config.l1iBandwidth config.fetchWidth
    state.l1iBus.returned state.ifetchBuffer (by omega)
  have kept : state.l1dBus.returned.drop config.l1dBandwidth = state.l1dBus.returned := by
    have whole := List.take_append_drop config.l1dBandwidth state.l1dBus.returned
    rw [none] at whole
    exact whole
  unfold handleMemoryReturn at ran
  rw [serviced, none, kept] at ran
  exact (Option.some.inj ran).symm

/-! ### Loads and stores -/

theorem completeStores_idle (complete : LsqEntry → Bool) (bandwidth : Nat) (bus : Channel)
    (sq : List LsqEntry) :
    completeStores config complete bandwidth bus sq = (sq, bus) ∨
      (completeStores config complete bandwidth bus sq).1.length < sq.length := by
  induction bandwidth generalizing bus sq with
  | zero => exact Or.inl rfl
  | succ bandwidth ih =>
      cases sq with
      | nil => exact Or.inl rfl
      | cons entry rest =>
          unfold completeStores
          split
          · split
            · rename_i issued _accepted
              refine Or.inr (Nat.lt_succ_of_le ?_)
              rcases ih issued rest with unchanged | fewer
              · rw [unchanged]
              · exact Nat.le_of_lt fewer
            · exact Or.inl rfl
          · exact Or.inl rfl

theorem issueLoads_idle (time width : Nat) (bus : Channel) (lq : List (Option LsqEntry))
    (loaded : List (Option LsqEntry) × (Nat × Channel))
    (swept : Queue.sweep (issueLoad config time) (width, bus) lq = some loaded) :
    (loaded.1 = lq ∧ loaded.2.2 = bus ∧ loaded.2.1 = width) ∨ loaded.2.1 < width := by
  have still := Queue.sweep_idle (issueLoad config time) (fun loads => -(loads.1 : Int))
    Prod.snd (by
      intro loads lqEntry visited after visit
      unfold issueLoad at visit
      split at visit
      · cases visit
        exact Or.inl ⟨rfl, rfl, rfl⟩
      · split at visit
        · rename_i allowed
          split at visit
          · cases visit
            refine Or.inr ?_
            change -(loads.1 : Int) < -((loads.1 - 1 : Nat) : Int)
            omega
          · cases visit
            exact Or.inl ⟨rfl, rfl, rfl⟩
        · cases visit
          exact Or.inl ⟨rfl, rfl, rfl⟩) lq (width, bus) loaded swept
  dsimp only at still
  rcases still with ⟨unchanged, kept, same⟩ | further
  · exact Or.inl ⟨unchanged, kept, by omega⟩
  · exact Or.inr (by omega)

theorem lsq_moved (ran : state.operateLsq config = some next) :
    Moved state (state.lsqProgress config) next := by
  unfold lsqProgress
  unfold operateLsq at ran
  dsimp only at ran ⊢
  obtain ⟨⟨rob, lq⟩, finished, loaded⟩ := Option.bind_eq_some_iff.mp ran
  obtain ⟨⟨lqLoaded, loads⟩, swept, same⟩ := Option.map_eq_some_iff.mp loaded
  rw [finished, Option.bind_some, swept]
  change Moved state (_ + _ + ((config.lqWidth : Int) - loads.1)) next
  have stores := completeStores_idle config
    (fun entry => isRetired state.rob entry &&
      entry.readyTime.any (fun ready => decide (ready ≤ state.currentTime)))
    (config.sqWidth - (state.finishing config).length) state.l1dBus
    (state.sq.takeWhile (fun entry => entry.fetchIssued) ++
      (state.finishing config).map
        (fun entry => { entry with fetchIssued := true, readyTime := some state.currentTime }) ++
      (state.sq.dropWhile (fun entry => entry.fetchIssued)).drop (state.finishing config).length)
  have issues := issueLoads_idle config state.currentTime config.lqWidth _ lq (lqLoaded, loads) swept
  dsimp only at issues
  have width : loads.1 ≤ config.lqWidth := by
    rcases issues with ⟨_, _, same⟩ | fewer
    · exact Nat.le_of_eq same
    · exact Nat.le_of_lt fewer
  have isPrefix : state.finishing config = [] ∨ 0 < (state.finishing config).length := by
    cases state.finishing config with
    | nil => exact Or.inl rfl
    | cons entry rest => exact Or.inr (Nat.succ_pos _)
  rcases stores with unchanged | fewer
  · rw [unchanged] at issues same ⊢
    rcases isPrefix with noneFinish | finishes
    · rcases issues with ⟨unchangedLoads, bus, spent⟩ | issued
      · refine Or.inl ⟨?_, ?_⟩
        · rw [noneFinish, spent]
          dsimp only [List.length_nil]
          omega
        · rw [noneFinish] at finished
          cases finished
          rw [← same, unchangedLoads, bus, noneFinish]
          dsimp only
          rw [List.map_nil, List.append_nil, List.length_nil, List.drop_zero,
            List.takeWhile_append_dropWhile]
      · refine Or.inr ?_
        dsimp only
        omega
    · refine Or.inr ?_
      dsimp only
      omega
  · exact Or.inr (by omega)

/-! ### The front end -/

theorem dispatchLoop_idle (bandwidth : Nat) (state : O3Cpu Module)
    (ran : dispatchLoop config bandwidth state = some next) :
    next = state ∨ next.dispatchBuffer.length < state.dispatchBuffer.length := by
  induction bandwidth generalizing state with
  | zero =>
      cases ran
      exact Or.inl rfl
  | succ bandwidth ih =>
      unfold dispatchLoop at ran
      split at ran
      · cases ran
        exact Or.inl rfl
      · rename_i instr rest front
        split at ran
        · obtain ⟨middle, first, remaining⟩ := Option.bind_eq_some_iff.mp ran
          obtain ⟨schedule, _scheduled, same⟩ := Option.map_eq_some_iff.mp first
          have fewer : middle.dispatchBuffer.length < state.dispatchBuffer.length := by
            rw [← same, front]
            exact Nat.lt_succ_self _
          rcases ih middle remaining with unchanged | further
          · exact Or.inr (by rw [unchanged]; exact fewer)
          · exact Or.inr (further.trans fewer)
        · cases ran
          exact Or.inl rfl

theorem dispatch_moved (ran : state.dispatchInstruction config = some next) :
    Moved state (state.dispatchProgress config) next := by
  unfold dispatchProgress
  rw [ran]
  change Moved state ((state.dispatchBuffer.length : Int) - next.dispatchBuffer.length) next
  rcases dispatchLoop_idle config config.dispatchWidth state ran with unchanged | fewer
  · exact Or.inl ⟨by rw [unchanged, Int.sub_self], unchanged⟩
  · exact Or.inr (by omega)

/-- What is selected and what is left make up the two buffers. -/
structure Split (state : O3Cpu Module) (selection : Selection) : Prop where
  dibHits : selection.dibHits ++ selection.dibHitsLeft = state.dibHitBuffer
  decodes : selection.decodes ++ selection.decodesLeft = state.decodeBuffer

theorem Split.takeDibHit {selection : Selection} (split : Split state selection)
    (entry : OooModelInstr) (rest : List OooModelInstr)
    (front : selection.dibHitsLeft = entry :: rest) :
    Split state (selection.takeDibHit entry rest) := by
  refine ⟨?_, split.decodes⟩
  rw [← split.dibHits, front, List.append_cons]
  rfl

theorem Split.takeDecode {selection : Selection} (split : Split state selection)
    (entry : OooModelInstr) (rest : List OooModelInstr)
    (front : selection.decodesLeft = entry :: rest) :
    Split state (selection.takeDecode entry rest) := by
  refine ⟨split.dibHits, ?_⟩
  rw [← split.decodes, front, List.append_cons]
  rfl

theorem selectDecodes_split (state : O3Cpu Module) :
    Split state (state.selectDecodes config) := by
  have fewer : ∀ current : Selection, 0 < current.inorder →
      current.inorder - 1 + 1 = current.inorder :=
    fun _current bandwidth => Nat.sub_add_cancel bandwidth
  unfold selectDecodes
  dsimp only
  apply Selection.run_invariant
  · intro current next split bandwidth chooses
    unfold Selection.chooseDecode at chooses
    split at chooses
    · rename_i decode decodes front
      split at chooses
      · cases chooses
        exact ⟨split.takeDecode decode decodes front, fewer current bandwidth⟩
      · cases chooses
    · cases chooses
  apply Selection.run_invariant
  · intro current next split bandwidth chooses
    unfold Selection.chooseDibHit at chooses
    split at chooses
    · rename_i dibHit dibHits front
      split at chooses
      · cases chooses
        exact ⟨split.takeDibHit dibHit dibHits front, fewer current bandwidth⟩
      · cases chooses
    · cases chooses
  apply Selection.run_invariant
  · intro current next split bandwidth chooses
    unfold Selection.chooseEither at chooses
    split at chooses
    · rename_i dibHit dibHits decode decodes hits left
      generalize (if decode.programOrder dibHit then decode else dibHit).isReady _ = ready at chooses
      split at chooses
      · split at chooses
        · cases chooses
          exact ⟨split.takeDibHit dibHit dibHits hits, fewer current bandwidth⟩
        · cases chooses
          exact ⟨split.takeDecode decode decodes left, fewer current bandwidth⟩
      · cases chooses
    · cases chooses
  exact ⟨rfl, rfl⟩

theorem decode_moved (state : O3Cpu Module) :
    Moved state (state.decodeProgress config) (state.decodeInstruction config hooks) := by
  have nonneg : 0 ≤ state.decodeProgress config := Int.natCast_nonneg _
  rcases Int.lt_or_eq_of_le nonneg with moved | idle
  · exact Or.inr moved
  refine Or.inl ⟨idle.symm, ?_⟩
  unfold decodeProgress at idle
  have split := selectDecodes_split config state
  have hits : (state.selectDecodes config).dibHits = [] := by
    apply List.eq_nil_of_length_eq_zero
    omega
  have decodes : (state.selectDecodes config).decodes = [] := by
    apply List.eq_nil_of_length_eq_zero
    omega
  have dibHitsLeft := split.dibHits
  have decodesLeft := split.decodes
  rw [hits, List.nil_append] at dibHitsLeft
  rw [decodes, List.nil_append] at decodesLeft
  unfold decodeInstruction
  dsimp only
  rw [hits, decodes, dibHitsLeft, decodesLeft]
  unfold decodeEach mergeInOrder
  rw [List.map_nil, List.append_nil]

theorem promote_moved (ran : state.promoteToDecode config = some next) :
    Moved state (state.promoteProgress config) next := by
  unfold promoteProgress
  rw [ran]
  change Moved state ((state.ifetchBuffer.length : Int) - next.ifetchBuffer.length) next
  obtain ⟨window, rest, split, _room, same⟩ := promoteToDecode_window config state next ran
  cases window with
  | nil =>
      rw [List.nil_append] at split
      simp only [List.filter_nil, List.map_nil, List.append_nil, ← split] at same
      exact Or.inl ⟨by rw [same, Int.sub_self], same⟩
  | cons instr window =>
      refine Or.inr ?_
      rw [same, split]
      dsimp only
      rw [List.length_append, List.length_cons]
      omega

theorem fetchProgress_nonneg (bandwidth : Nat) (bus : Channel) (buffer : List OooModelInstr) :
    0 ≤ fetchProgress config bandwidth bus buffer := by
  induction bandwidth generalizing bus buffer with
  | zero => exact Int.le_refl 0
  | succ bandwidth ih =>
      unfold fetchProgress
      split
      · exact Int.le_refl 0
      · rename_i first rest found
        have more := ih ((doFetchInstruction config bus first
          (first :: rest.takeWhile (sameBlock config first))).getD bus)
          (rest.dropWhile (sameBlock config first))
        dsimp only
        split <;> omega

theorem fetchGroups_idle (bandwidth : Nat) (bus : Channel) (buffer : List OooModelInstr)
    (idle : fetchProgress config bandwidth bus buffer = 0) :
    fetchGroups config bandwidth bus buffer = (buffer, bus) := by
  induction bandwidth generalizing bus buffer with
  | zero => rfl
  | succ bandwidth ih =>
      unfold fetchProgress at idle
      unfold fetchGroups
      cases found : buffer.dropWhile (fun instr => !instr.fetchReady) with
      | nil => rfl
      | cons first rest =>
          have split := List.takeWhile_append_dropWhile
            (p := fun instr : OooModelInstr => !instr.fetchReady) (l := buffer)
          rw [found] at split
          have more := fetchProgress_nonneg config bandwidth ((doFetchInstruction config bus first
            (first :: rest.takeWhile (sameBlock config first))).getD bus)
            (rest.dropWhile (sameBlock config first))
          rw [found] at idle
          dsimp only at idle ⊢
          cases issued : doFetchInstruction config bus first
              (first :: rest.takeWhile (sameBlock config first)) with
          | some accepted =>
              rw [issued, Option.isSome_some, if_pos rfl] at idle
              rw [issued] at more
              omega
          | none =>
              simp only [issued, Option.isSome_none, Bool.false_eq_true, if_false,
                Option.getD_none, Int.zero_add] at idle ⊢
              rw [ih bus (rest.dropWhile (sameBlock config first)) idle]
              dsimp only
              rw [List.append_assoc, List.cons_append, List.takeWhile_append_dropWhile, split]

theorem fetch_moved (state : O3Cpu Module) :
    Moved state (fetchProgress config config.l1iBandwidth state.l1iBus state.ifetchBuffer)
      (state.fetchInstruction config) := by
  have nonneg := fetchProgress_nonneg config config.l1iBandwidth state.l1iBus state.ifetchBuffer
  rcases Int.lt_or_eq_of_le nonneg with moved | idle
  · exact Or.inr moved
  refine Or.inl ⟨idle.symm, ?_⟩
  unfold fetchInstruction
  rw [fetchGroups_idle config _ _ _ idle.symm]

theorem check_moved (state : O3Cpu Module) :
    Moved state (state.checkProgress config) (state.checkDib config hooks) := by
  have nonneg : 0 ≤ state.checkProgress config := Int.natCast_nonneg _
  rcases Int.lt_or_eq_of_le nonneg with moved | idle
  · exact Or.inr moved
  refine Or.inl ⟨idle.symm, ?_⟩
  have none : (state.ifetchBuffer.dropWhile (fun instr => instr.dibChecked)).take
      config.fetchWidth = [] := List.eq_nil_of_length_eq_zero (Int.ofNat.inj idle.symm)
  have whole := List.take_append_drop config.fetchWidth
    (state.ifetchBuffer.dropWhile (fun instr => instr.dibChecked))
  rw [none, List.nil_append] at whole
  unfold checkDib
  dsimp only
  rw [none, whole]
  unfold checkEach
  rw [List.append_nil, List.takeWhile_append_dropWhile]

/-! ### Whole cycles -/

/-- Every stage but the read of new instructions returns how much it has moved. -/
theorem stage_moved (stage : Stage) (counted : stage ≠ .initializeInstruction)
    (ran : state.runStage config hooks stage = some next) :
    Moved state (state.stageProgress config stage) next := by
  cases stage with
  | retireRob => exact retire_moved config ran
  | completeInflightInstruction => exact complete_moved config ran
  | executeInstruction => exact execute_moved config ran
  | scheduleInstruction beyond => exact schedule_moved config beyond ran
  | handleMemoryReturn => exact memoryReturn_moved config ran
  | operateLsq => exact lsq_moved config ran
  | dispatchInstruction => exact dispatch_moved config ran
  | decodeInstruction =>
      cases ran
      exact decode_moved config hooks state
  | promoteToDecode => exact promote_moved config ran
  | fetchInstruction =>
      cases ran
      exact fetch_moved config state
  | checkDib =>
      cases ran
      exact check_moved config hooks state
  | initializeInstruction => exact absurd rfl counted

theorem runCounting_moved (stages : List Stage)
    (counted : ∀ stage ∈ stages, stage ≠ .initializeInstruction) (state next : O3Cpu Module)
    (progress : Int) (ran : state.runCounting config hooks stages = some (progress, next)) :
    Moved state progress next := by
  induction stages generalizing state progress with
  | nil =>
      cases ran
      exact Or.inl ⟨rfl, rfl⟩
  | cons stage rest ih =>
      obtain ⟨middle, first, remaining⟩ := Option.bind_eq_some_iff.mp ran
      obtain ⟨⟨more, last⟩, others, same⟩ := Option.map_eq_some_iff.mp remaining
      cases same
      have here := stage_moved config hooks stage (counted stage List.mem_cons_self) first
      have later := ih (fun other member => counted other (List.mem_cons_of_mem stage member))
        middle more others
      rcases here with ⟨idle, unchanged⟩ | moved
      · rcases later with ⟨laterIdle, laterUnchanged⟩ | laterMoved
        · exact Or.inl ⟨by rw [idle, laterIdle]; rfl, laterUnchanged.trans unchanged⟩
        · exact Or.inr (by omega)
      · rcases later with ⟨laterIdle, _⟩ | laterMoved
        · exact Or.inr (by omega)
        · exact Or.inr (by omega)

theorem runCounting_append (stages others : List Stage) (state next : O3Cpu Module)
    (progress : Int)
    (ran : state.runCounting config hooks (stages ++ others) = some (progress, next)) :
    ∃ first middle second, state.runCounting config hooks stages = some (first, middle) ∧
      middle.runCounting config hooks others = some (second, next) ∧
        progress = first + second := by
  induction stages generalizing state progress with
  | nil => exact ⟨0, state, progress, rfl, ran, (Int.zero_add progress).symm⟩
  | cons stage rest ih =>
      obtain ⟨after, first, remaining⟩ := Option.bind_eq_some_iff.mp ran
      obtain ⟨⟨more, last⟩, later, same⟩ := Option.map_eq_some_iff.mp remaining
      cases same
      obtain ⟨earlier, middle, second, ranRest, ranOthers, total⟩ := ih after more later
      refine ⟨state.stageProgress config stage + earlier, middle, second, ?_, ranOthers, ?_⟩
      · unfold runCounting
        rw [first, Option.bind_some, ranRest]
        rfl
      · rw [total]
        exact (Int.add_assoc _ _ _).symm

theorem operate_moved (beyond : RegisterAllocator → Nat → Bool) (state next : O3Cpu Module)
    (progress : Int) (ran : state.operate config hooks beyond = some (progress, next)) :
    (progress = 0 ∧ next = state.initializeInstruction config hooks) ∨ 0 < progress := by
  have split : operateStages beyond =
      (operateStages beyond).dropLast ++ [.initializeInstruction] := rfl
  unfold operate at ran
  rw [split] at ran
  obtain ⟨first, middle, second, counted, last, total⟩ :=
    runCounting_append config hooks _ _ state next progress ran
  have uncounted : second = 0 ∧ next = middle.initializeInstruction config hooks := by
    cases last
    exact ⟨rfl, rfl⟩
  have moved := runCounting_moved config hooks _ (by
    intro stage member same
    rw [same] at member
    simp [operateStages] at member) state middle first counted
  rw [uncounted.1, Int.add_zero] at total
  rcases moved with ⟨idle, unchanged⟩ | further
  · refine Or.inl ⟨total.trans idle, ?_⟩
    rw [uncounted.2, unchanged]
  · exact Or.inr (total ▸ further)

end O3Cpu

end ChampSim.Core

/-
The ids in the buffers after each stage.

A stage leaves the ids of all buffers alone, or moves a prefix of one buffer
to the end of the next.
-/

import ChampSim.Core.Order

set_option autoImplicit false

namespace ChampSim.Core

open Cache

/-! ### The ids of the buffers -/

/-- A replaced instruction that looks the same leaves the whole buffer so. -/
theorem map_set_same {Seen : Type} (see : OooModelInstr → Seen) (instrs : List OooModelInstr)
    (index : Nat) (instr older : OooModelInstr) (present : instrs[index]? = some older)
    (same : see instr = see older) : (instrs.set index instr).map see = instrs.map see := by
  obtain ⟨within, _atIndex⟩ := List.getElem?_eq_some_iff.mp present
  apply List.ext_getElem?
  intro other
  rw [List.getElem?_map, List.getElem?_map]
  by_cases here : index = other
  · subst here
    rw [List.getElem?_set_self within, present, Option.map_some, Option.map_some, same]
  · rw [List.getElem?_set_ne here]

/-- A loop whose visits leave the look of each instruction leaves that of all. -/
theorem sweep_map {Search Seen : Type} (see : OooModelInstr → Seen)
    (visit : Search → OooModelInstr → Option (OooModelInstr × Search))
    (same : ∀ search instr result, visit search instr = some result →
      see result.1 = see instr)
    (search : Search) (instrs : List OooModelInstr) (result : List OooModelInstr × Search)
    (ran : Queue.sweep visit search instrs = some result) :
    result.1.map see = instrs.map see := by
  apply Queue.sweep_invariant visit (fun visited _ => visited.map see = instrs.map see) ?_ []
    instrs search result rfl ran
  intro front instr rest before visited next kept step
  have looks := same before instr (visited, next) step
  dsimp only at looks
  rw [List.map_append, List.map_cons, looks, ← List.map_cons, ← List.map_append]
  exact kept

/-! ### Memory operations -/

/-- An instruction but for the count of its complete memory operations. -/
def OooModelInstr.withoutOps (instr : OooModelInstr) : OooModelInstr :=
  { instr with completedMemOps := 0 }

def withoutOps (rob : List OooModelInstr) : List OooModelInstr := rob.map OooModelInstr.withoutOps

theorem ids_withoutOps {rob other : List OooModelInstr} (same : withoutOps rob = withoutOps other) :
    ids rob = ids other := by
  have through : ∀ instrs, ids instrs = ids (withoutOps instrs) := by
    intro instrs
    unfold ids withoutOps
    rw [List.map_map]
    rfl
  rw [through, same, ← through]

namespace LsqEntry

theorem finishInstr_withoutOps (entry : LsqEntry) (instr finished : OooModelInstr)
    (ran : entry.finishInstr instr = some finished) : finished.withoutOps = instr.withoutOps := by
  unfold finishInstr at ran
  split at ran
  · cases ran
    rfl
  · cases ran

theorem finish_withoutOps (entry : LsqEntry) (rob finished : List OooModelInstr)
    (ran : entry.finish rob = some finished) : withoutOps finished = withoutOps rob := by
  obtain ⟨instr, present, finishes⟩ := Option.bind_eq_some_iff.mp ran
  obtain ⟨changed, one, same⟩ := Option.map_eq_some_iff.mp finishes
  subst same
  exact map_set_same _ rob _ changed instr present (entry.finishInstr_withoutOps instr changed one)

end LsqEntry

theorem scheduleLoad_withoutOps (schedule next : MemorySchedule) (smem : Address)
    (ran : schedule.scheduleLoad smem = some next) :
    next.instr.withoutOps = schedule.instr.withoutOps := by
  unfold MemorySchedule.scheduleLoad at ran
  dsimp only at ran
  split at ran
  · cases ran
  · split at ran
    · cases ran
      rfl
    · split at ran
      · cases ran
        rfl
      · split at ran
        · cases ran
          rfl
        · split at ran
          · obtain ⟨instr, finished, same⟩ := Option.map_eq_some_iff.mp ran
            subst same
            exact LsqEntry.finishInstr_withoutOps _ schedule.instr instr finished
          · split at ran
            · cases ran
              rfl
            · cases ran

theorem scheduleStores_instr (stores : List Address) (schedule : MemorySchedule) :
    (stores.foldl MemorySchedule.scheduleStore schedule).instr = schedule.instr := by
  induction stores generalizing schedule with
  | nil => rfl
  | cons dmem rest ih => exact ih (schedule.scheduleStore dmem)

theorem doMemoryScheduling_withoutOps (schedule next : MemorySchedule)
    (ran : doMemoryScheduling schedule = some next) :
    next.instr.withoutOps = schedule.instr.withoutOps := by
  obtain ⟨loaded, loads, same⟩ := Option.map_eq_some_iff.mp ran
  subst same
  rw [scheduleStores_instr]
  exact Queue.foldlM_invariant MemorySchedule.scheduleLoad
    (fun reached => reached.instr.withoutOps = schedule.instr.withoutOps) _
    (fun state smem _member later kept step =>
      (scheduleLoad_withoutOps state later smem step).trans kept) schedule loaded rfl loads

namespace O3Cpu

variable {Module : Type} (config : Config) (hooks : CoreModules Module)

/-! ### The ids after a stage -/

theorem retireRob_order (state next : O3Cpu Module) (ran : state.retireRob config = some next) :
    next.order =
        { state.order with rob := state.order.rob.drop (state.retiring config).length } ∧
      ids (state.retiring config) = state.order.rob.take (state.retiring config).length := by
  obtain ⟨alloc, _retired, same⟩ := Option.map_eq_some_iff.mp ran
  subst same
  have isPrefix := Queue.span_isPrefix config.retireWidth
    (fun instr : OooModelInstr => instr.completed) state.rob
  constructor
  · unfold order ids
    dsimp only
    rw [List.map_drop]
  · unfold order ids retiring
    rw [← List.map_take]
    exact congrArg _ (List.prefix_iff_eq_take.mp isPrefix)

theorem completeInflightInstruction_order (state next : O3Cpu Module)
    (ran : state.completeInflightInstruction config = some next) : next.order = state.order := by
  obtain ⟨⟨rob, completing⟩, swept, same⟩ := Option.map_eq_some_iff.mp ran
  subst same
  have robIds := sweep_map (fun instr => instr.instrId) _ (fun search instr result step => by
    unfold completeVisit at step
    split at step
    · obtain ⟨alloc, _completes, same⟩ := Option.map_eq_some_iff.mp step
      subst same
      rfl
    · cases step
      rfl) _ _ _ swept
  unfold order ids
  dsimp only
  rw [robIds]

theorem executeInstruction_map {Seen : Type} (see : OooModelInstr → Seen)
    (blind : ∀ instr time, see { instr with executed := true, readyTime := time } = see instr)
    (state next : O3Cpu Module) (ran : state.executeInstruction config = some next) :
    next.rob.map see = state.rob.map see := by
  obtain ⟨⟨rob, executing⟩, swept, same⟩ := Option.map_eq_some_iff.mp ran
  subst same
  apply sweep_map see _ ?_ _ _ _ swept
  intro search instr result step
  unfold executeVisit at step
  split at step
  · obtain ⟨ready, _valid, same⟩ := Option.map_eq_some_iff.mp step
    subst same
    split
    · exact blind instr _
    · rfl
  · cases step
    rfl

theorem executeInstruction_order (state next : O3Cpu Module)
    (ran : state.executeInstruction config = some next) : next.order = state.order := by
  have robIds := executeInstruction_map config (fun instr => instr.instrId) (fun _ _ => rfl) state
    next ran
  obtain ⟨executing, _swept, same⟩ := Option.map_eq_some_iff.mp ran
  subst same
  unfold order ids
  rw [robIds]

theorem doScheduling_shape (alloc last : RegisterAllocator) (instr scheduled : OooModelInstr)
    (ran : doScheduling alloc instr = some (scheduled, last)) :
    ∃ sourceRegisters destinationRegisters,
      scheduled = { instr with sourceRegisters, destinationRegisters, scheduled := true } := by
  obtain ⟨⟨sources, renamed⟩, _first, others⟩ := Option.bind_eq_some_iff.mp ran
  obtain ⟨⟨destinations, allocated⟩, _second, same⟩ := Option.map_eq_some_iff.mp others
  cases same
  exact ⟨sources, destinations, rfl⟩

theorem scheduleInstruction_map {Seen : Type} (see : OooModelInstr → Seen)
    (blind : ∀ instr sourceRegisters destinationRegisters,
      see { instr with sourceRegisters, destinationRegisters, scheduled := true } = see instr)
    (beyond : RegisterAllocator → Nat → Bool) (state next : O3Cpu Module)
    (ran : state.scheduleInstruction config beyond = some next) :
    next.rob.map see = state.rob.map see := by
  obtain ⟨⟨rob, search⟩, swept, same⟩ := Option.map_eq_some_iff.mp ran
  subst same
  apply sweep_map see _ ?_ _ _ _ swept
  intro search instr result step
  unfold scheduleVisit at step
  split at step
  · cases step
    rfl
  · split at step
    · cases step
      rfl
    · obtain ⟨⟨scheduled, alloc⟩, schedules, same⟩ := Option.map_eq_some_iff.mp step
      subst same
      split at schedules
      · obtain ⟨sources, destinations, same⟩ := doScheduling_shape _ alloc instr scheduled schedules
        rw [same]
        exact blind instr sources destinations
      · cases schedules
        rfl

theorem scheduleInstruction_order (beyond : RegisterAllocator → Nat → Bool)
    (state next : O3Cpu Module) (ran : state.scheduleInstruction config beyond = some next) :
    next.order = state.order := by
  have robIds := scheduleInstruction_map config (fun instr => instr.instrId) (fun _ _ _ => rfl)
    beyond state next ran
  obtain ⟨search, _swept, same⟩ := Option.map_eq_some_iff.mp ran
  subst same
  unfold order ids
  rw [robIds]

theorem doFinishStore_withoutOps (memory next : List OooModelInstr × List (Option LsqEntry))
    (sqEntry : LsqEntry) (ran : doFinishStore memory sqEntry = some next) :
    withoutOps next.1 = withoutOps memory.1 := by
  obtain ⟨rob, finished, released⟩ := Option.bind_eq_some_iff.mp ran
  apply Queue.foldlM_invariant (releaseLoad sqEntry.instrId)
    (fun reached => withoutOps reached.1 = withoutOps memory.1) _ ?_ (rob, memory.2) next
    (sqEntry.finish_withoutOps memory.1 rob finished) released
  intro reached slot _member later kept step
  obtain ⟨dependent, _present, checked⟩ := Option.bind_eq_some_iff.mp step
  split at checked
  · obtain ⟨rest, finishes, same⟩ := Option.map_eq_some_iff.mp checked
    subst same
    exact (dependent.finish_withoutOps reached.1 rest finishes).trans kept
  · cases checked

theorem finishStores_withoutOps (stores : List LsqEntry)
    (memory next : List OooModelInstr × List (Option LsqEntry))
    (ran : stores.foldlM doFinishStore memory = some next) :
    withoutOps next.1 = withoutOps memory.1 :=
  Queue.foldlM_invariant doFinishStore
    (fun reached => withoutOps reached.1 = withoutOps memory.1) stores
    (fun reached entry _member later kept step =>
      (doFinishStore_withoutOps reached later entry step).trans kept) memory next rfl ran

theorem operateLsq_order (state next : O3Cpu Module) (ran : state.operateLsq config = some next) :
    next.order = state.order := by
  obtain ⟨⟨rob, lq⟩, finished, loaded⟩ := Option.bind_eq_some_iff.mp ran
  obtain ⟨⟨loads, bus⟩, _issued, same⟩ := Option.map_eq_some_iff.mp loaded
  subst same
  have robIds := ids_withoutOps (finishStores_withoutOps _ _ _ finished)
  unfold order
  dsimp only
  rw [robIds]

theorem serviceDependents_map {Seen : Type} (see : OooModelInstr → Seen)
    (blind : ∀ instr, see { instr with fetchCompleted := true } = see instr) (vAddress : Address)
    (fetchBandwidth : Nat) (dependents : List Nat) (buffer : List OooModelInstr) :
    (serviceDependents config vAddress fetchBandwidth dependents buffer).2.2.map see =
      buffer.map see := by
  fun_induction serviceDependents config vAddress fetchBandwidth dependents buffer with
  | case1 => rfl
  | case2 => rfl
  | case3 _ _ _ _ _ _ ih => exact ih
  | case4 bandwidth dependent rest buffer index fetched present matched ih =>
      exact ih.trans (map_set_same see buffer _ _ fetched present (blind fetched))
  | case5 _ _ _ _ _ _ _ _ ih => exact ih

theorem serviceReturned_map {Seen : Type} (see : OooModelInstr → Seen)
    (blind : ∀ instr, see { instr with fetchCompleted := true } = see instr)
    (l1iBandwidth fetchBandwidth : Nat) (returned : List Response) (buffer : List OooModelInstr) :
    (serviceReturned config l1iBandwidth fetchBandwidth returned buffer).2.map see =
      buffer.map see := by
  fun_induction serviceReturned config l1iBandwidth fetchBandwidth returned buffer with
  | case1 => rfl
  | case2 => rfl
  | case3 => rfl
  | case4 buffer bandwidth fetchBandwidth entry rest some serviced empty ih =>
      exact ih.trans (serviceDependents_map config see blind _ _ _ _)
  | case5 => exact serviceDependents_map config see blind _ _ _ _

theorem finishLoads_withoutOps (memory next : List OooModelInstr × List (Option LsqEntry))
    (response : Response) (ran : finishLoads config memory response = some next) :
    withoutOps next.1 = withoutOps memory.1 := by
  obtain ⟨⟨lq, rob⟩, swept, same⟩ := Option.map_eq_some_iff.mp ran
  subst same
  apply Queue.sweep_invariant (finishLoad config response.vAddress)
    (fun _ reached => withoutOps reached = withoutOps memory.1) ?_ [] memory.2 memory.1 (lq, rob)
    rfl swept
  intro front entry rest reached visited later kept step
  unfold finishLoad at step
  split at step
  · cases step
    exact kept
  · split at step
    · obtain ⟨finished, finishes, same⟩ := Option.map_eq_some_iff.mp step
      cases same
      exact (LsqEntry.finish_withoutOps _ reached later finishes).trans kept
    · cases step
      exact kept

theorem returnLoads_withoutOps (responses : List Response)
    (memory next : List OooModelInstr × List (Option LsqEntry))
    (ran : responses.foldlM (finishLoads config) memory = some next) :
    withoutOps next.1 = withoutOps memory.1 :=
  Queue.foldlM_invariant (finishLoads config)
    (fun reached => withoutOps reached.1 = withoutOps memory.1) responses
    (fun reached response _member later kept step =>
      (finishLoads_withoutOps config reached later response step).trans kept) memory next rfl ran

theorem handleMemoryReturn_order (state next : O3Cpu Module)
    (ran : state.handleMemoryReturn config = some next) : next.order = state.order := by
  obtain ⟨⟨rob, lq⟩, finished, same⟩ := Option.map_eq_some_iff.mp ran
  subst same
  have robIds := ids_withoutOps (returnLoads_withoutOps config _ _ _ finished)
  have ifetch := serviceReturned_map config (fun instr => instr.instrId) (fun _ => rfl)
    config.l1iBandwidth config.fetchWidth state.l1iBus.returned state.ifetchBuffer
  unfold order
  dsimp only
  rw [robIds]
  unfold ids
  rw [ifetch]

theorem checkEach_map {Seen : Type} (see : OooModelInstr → Seen)
    (checks : ∀ instr, see { instr with dibChecked := true } = see instr)
    (time : Nat)
    (hits : ∀ instr, see
      { instr with fetchCompleted := true, decoded := true, readyTime := time, dibChecked := true } =
        see instr)
    (modules : Module) (instrs : List OooModelInstr) :
    (checkEach hooks time modules instrs).1.map see = instrs.map see := by
  induction instrs generalizing modules with
  | nil => rfl
  | cons instr rest ih =>
      have same : see (doCheckDib hooks time modules instr).1 = see instr := by
        unfold doCheckDib
        dsimp only
        split
        · exact hits instr
        · exact checks instr
      unfold checkEach
      dsimp only
      rw [List.map_cons, List.map_cons, same, ih]

theorem checkDib_map {Seen : Type} (see : OooModelInstr → Seen) (state : O3Cpu Module)
    (checks : ∀ instr, see { instr with dibChecked := true } = see instr)
    (hits : ∀ instr, see
      { instr with
        fetchCompleted := true
        decoded := true
        readyTime := state.currentTime
        dibChecked := true } = see instr) :
    (state.checkDib config hooks).ifetchBuffer.map see = state.ifetchBuffer.map see := by
  have checked := checkEach_map hooks see checks state.currentTime hits state.modules
    ((state.ifetchBuffer.dropWhile (fun instr => instr.dibChecked)).take config.fetchWidth)
  unfold checkDib
  dsimp only
  rw [List.map_append, List.map_append, checked, ← List.map_append, ← List.map_append,
    List.append_assoc, List.take_append_drop, List.takeWhile_append_dropWhile]

theorem checkDib_order (state : O3Cpu Module) :
    (state.checkDib config hooks).order = state.order := by
  have ifetch := checkDib_map config hooks (fun instr => instr.instrId) state (fun _ => rfl)
    (fun _ => rfl)
  unfold order ids
  rw [ifetch]
  rfl

theorem fetchGroups_map {Seen : Type} (see : OooModelInstr → Seen)
    (blind : ∀ instr, see { instr with fetchIssued := true } = see instr) (bandwidth : Nat)
    (bus : Channel) (buffer : List OooModelInstr) :
    (fetchGroups config bandwidth bus buffer).1.map see = buffer.map see := by
  induction bandwidth generalizing bus buffer with
  | zero => rfl
  | succ bandwidth ih =>
      unfold fetchGroups
      dsimp only
      split
      · rfl
      · rename_i first rest found
        have split := List.takeWhile_append_dropWhile
          (p := fun instr : OooModelInstr => !instr.fetchReady) (l := buffer)
        rw [found] at split
        have group : ∀ issued : Bool, (if issued = true then
            (first :: rest.takeWhile (sameBlock config first)).map
              (fun instr => { instr with fetchIssued := true })
            else first :: rest.takeWhile (sameBlock config first)).map see =
              (first :: rest.takeWhile (sameBlock config first)).map see := by
          intro issued
          cases issued with
          | false => rfl
          | true =>
              rw [if_pos rfl, List.map_map]
              exact List.map_congr_left (fun instr _member => blind instr)
        rw [List.map_append, List.map_append, group, ih, List.append_assoc, ← List.map_append,
          List.cons_append, List.takeWhile_append_dropWhile, ← List.map_append, split]

theorem fetchInstruction_order (state : O3Cpu Module) :
    (state.fetchInstruction config).order = state.order := by
  have ifetch := fetchGroups_map config (fun instr => instr.instrId) (fun _ => rfl)
    config.l1iBandwidth state.l1iBus state.ifetchBuffer
  unfold order fetchInstruction ids
  dsimp only
  rw [ifetch]

/-! ### Stages that move instructions -/

theorem dispatchFront_order (state next : O3Cpu Module) (instr : OooModelInstr)
    (rest : List OooModelInstr) (ran : state.dispatchFront config instr rest = some next) :
    next.order =
      { state.order with rob := state.order.rob ++ [instr.instrId], dispatch := ids rest } := by
  obtain ⟨schedule, scheduled, same⟩ := Option.map_eq_some_iff.mp ran
  subst same
  have id := congrArg OooModelInstr.instrId (doMemoryScheduling_withoutOps _ schedule scheduled)
  change schedule.instr.instrId = instr.instrId at id
  unfold order ids
  dsimp only
  rw [List.map_append, List.map_singleton, id]

theorem dispatchFront_inOrder {history : History} (state next : O3Cpu Module)
    (instr : OooModelInstr) (rest : List OooModelInstr)
    (inOrder : InOrder config state.order history) (front : state.dispatchBuffer = instr :: rest)
    (allowed : state.canDispatch config instr)
    (ran : state.dispatchFront config instr rest = some next) :
    InOrder config next.order history := by
  rw [dispatchFront_order config state next instr rest ran]
  apply inOrder.dispatch
  · change ids state.dispatchBuffer = _
    rw [front]
    rfl
  · change (ids state.rob).length ≠ _
    unfold ids
    rw [List.length_map]
    exact allowed.2.1

theorem dispatchLoop_inOrder {history : History} (bandwidth : Nat) (state next : O3Cpu Module)
    (inOrder : InOrder config state.order history)
    (ran : dispatchLoop config bandwidth state = some next) :
    InOrder config next.order history := by
  induction bandwidth generalizing state with
  | zero =>
      cases ran
      exact inOrder
  | succ bandwidth ih =>
      unfold dispatchLoop at ran
      split at ran
      · cases ran
        exact inOrder
      · rename_i instr rest front
        split at ran
        · rename_i allowed
          obtain ⟨middle, first, remaining⟩ := Option.bind_eq_some_iff.mp ran
          exact ih middle (dispatchFront_inOrder config state middle instr rest inOrder front
            allowed first) remaining
        · cases ran
          exact inOrder

theorem readInstructions_inOrder {history : History} (bandwidth : Nat) (state : O3Cpu Module)
    (inOrder : InOrder config state.order history)
    (room : bandwidth ≤ config.ifetchBufferSize - state.ifetchBuffer.length) :
    InOrder config (readInstructions hooks bandwidth state).order history := by
  induction bandwidth generalizing state with
  | zero => exact inOrder
  | succ bandwidth ih =>
      unfold readInstructions
      split
      · exact inOrder
      · rename_i front others waiting
        split
        · obtain ⟨stop, sources, destinations, prediction, mispredicted, modules, resume, _fewer,
            _less, initiated⟩ := state.doInitInstruction_shape hooks front
          dsimp only
          rw [initiated]
          have received : InOrder config
              { state.order with
                ifetch := state.order.ifetch ++ [front.instrId]
                input := ids others } history := by
            apply inOrder.receive
            · change ids state.inputQueue = _
              rw [waiting]
              rfl
            · change (ids state.ifetchBuffer).length < _
              unfold ids
              rw [List.length_map]
              omega
          have moved : InOrder config (O3Cpu.order { state with
              modules
              fetchResumeTime := resume
              inputQueue := others
              ifetchBuffer := state.ifetchBuffer ++
                [{ front with
                    sourceRegisters := sources
                    destinationRegisters := destinations
                    branchPrediction := prediction
                    branchMispredicted := mispredicted
                    readyTime := state.currentTime }] }) history := by
            unfold order ids
            dsimp only
            rw [List.map_append, List.map_singleton]
            exact received
          split
          · exact moved
          · apply ih _ moved
            dsimp only
            rw [List.length_append, List.length_singleton]
            omega
        · exact inOrder

theorem initializeInstruction_inOrder {history : History} (state : O3Cpu Module)
    (inOrder : InOrder config state.order history) :
    InOrder config (state.initializeInstruction config hooks).order history :=
  readInstructions_inOrder config hooks _ state inOrder (Nat.min_le_right _ _)

theorem promoteToDecode_inOrder {history : History} (state next : O3Cpu Module)
    (inOrder : InOrder config state.order history)
    (ran : state.promoteToDecode config = some next) : InOrder config next.order history := by
  obtain ⟨window, rest, split, ⟨hitRoom, missRoom⟩, same⟩ := promoteToDecode_window config state next ran
  have sorted : (ids window).Pairwise (fun earlier later => earlier < later) := by
    have all := inOrder.sorted.ifetch
    have same : state.order.ifetch = ids window ++ ids rest := by
      change ids state.ifetchBuffer = _
      rw [split]
      exact List.map_append
    rw [same, List.pairwise_append] at all
    exact all.1
  have merged : (ids (window.filter (fun instr => instr.decoded))).merge
      (ids (window.filter (fun instr => !instr.decoded))) idLe = ids window := by
    rw [← ids_mergeInOrder, mergeInOrder_eq_merge]
    apply congrArg ids
    apply Merge.merge_filter
    apply List.Pairwise.imp ?_ (List.pairwise_map.mp sorted)
    intro earlier later less
    unfold OooModelInstr.programOrder
    rw [decide_eq_true less, decide_eq_false (by omega)]
    exact ⟨rfl, rfl⟩
  have kept : ∀ (instrs : List OooModelInstr) (time : Nat),
      ids (instrs.map (fun instr => { instr with readyTime := time })) = ids instrs := by
    intro instrs time
    unfold ids
    rw [List.map_map]
    rfl
  have fewer : ∀ condition : OooModelInstr → Bool,
      (ids (window.filter condition)).Sublist (ids window) :=
    fun condition => (List.filter_sublist).map _
  have lengths : ∀ condition : OooModelInstr → Bool,
      (ids (window.filter condition)).length ≤ window.length := by
    intro condition
    have atMost := (fewer condition).length_le
    unfold ids at atMost ⊢
    rw [List.length_map, List.length_map] at atMost
    rw [List.length_map]
    exact atMost
  have promoted := inOrder.promote (ids window)
    (ids (window.filter (fun instr => instr.decoded)))
    (ids (window.filter (fun instr => !instr.decoded))) (ids rest) (by
      change ids state.ifetchBuffer = _
      rw [split]
      exact List.map_append) merged (sorted.sublist (fewer _)) (sorted.sublist (fewer _))
    (by
      have hits := lengths (fun instr => instr.decoded)
      change (ids state.dibHitBuffer).length + _ ≤ _
      unfold ids at hits ⊢
      rw [List.length_map]
      omega)
    (by
      have misses := lengths (fun instr => !instr.decoded)
      change (ids state.decodeBuffer).length + _ ≤ _
      unfold ids at misses ⊢
      rw [List.length_map]
      omega)
  rw [same]
  unfold order
  dsimp only
  unfold ids at kept promoted ⊢
  rw [List.map_append, List.map_append, kept, kept]
  exact promoted

end O3Cpu

end ChampSim.Core

/-
The writes of the store queue.

A run is recorded with the instructions that were dispatched and with the
writes that the bus of the data cache accepted. What was written, and then what
the store queue holds, are the store operands of what was dispatched, in order.
-/

import ChampSim.Core.MemoryQueues
import ChampSim.Core.RegisterStages

set_option autoImplicit false

namespace ChampSim.Core

open Transition Cache

/-! ### Operands -/

def LsqEntry.operand (entry : LsqEntry) : Nat × Address := (entry.instrId, entry.virtualAddress)

def sqOperands (sq : List LsqEntry) : List (Nat × Address) := sq.map LsqEntry.operand

def OooModelInstr.storeOperands (instr : OooModelInstr) : List (Nat × Address) :=
  instr.destinationMemory.map (fun dmem => (instr.instrId, dmem))

theorem sqOperands_untimed {sq others : List LsqEntry}
    (same : sq.map LsqEntry.untimed = others.map LsqEntry.untimed) :
    sqOperands sq = sqOperands others := by
  have through : ∀ entries, sqOperands entries = sqOperands (entries.map LsqEntry.untimed) := by
    intro entries
    unfold sqOperands
    rw [List.map_map]
    rfl
  rw [through, same, ← through]

/-- The instructions that were dispatched and the writes that were accepted. -/
structure StoreLog where
  dispatched : List OooModelInstr := []
  written : List (Nat × Address) := []

namespace O3Cpu

variable {Module : Type} (config : Config) (hooks : CoreModules Module)

/-- The instructions that dispatch adds to the reorder buffer. -/
def dispatchingInstrs (state : O3Cpu Module) : List OooModelInstr :=
  (state.dispatchInstruction config).elim [] (fun next => next.rob.drop state.rob.length)

/-- The writes that the bus accepts in `operate_lsq`. -/
def writing (state : O3Cpu Module) : List (Nat × Address) :=
  (state.operateLsq config).elim [] (fun next =>
    (next.l1dBus.wq.drop state.l1dBus.wq.length).map
      (fun packet => (packet.instrId, packet.vAddress)))

/-- The stores for which a write is attempted, with the bandwidth that remains. -/
def writeAttempts (complete : LsqEntry → Bool) : Nat → Channel → List LsqEntry → List LsqEntry
  | 0, _, _ => []
  | _, _, [] => []
  | bandwidth + 1, bus, entry :: rest =>
      if complete entry then
        entry :: (issueWrite config bus (storePacket entry)).elim []
          (fun issued => writeAttempts complete bandwidth issued rest)
      else []

/-- The writes that `operate_lsq` attempts. -/
def attempts (state : O3Cpu Module) : List LsqEntry :=
  writeAttempts config state.isComplete (config.sqWidth - (state.finishing config).length)
    state.l1dBus (state.finishedQueue config)

end O3Cpu

def noteStores {Module : Type} (config : Config) (noted : O3Cpu Module × History) (label : Step)
    (log : StoreLog) : StoreLog :=
  match label with
  | .stage .dispatchInstruction =>
      { log with dispatched := log.dispatched ++ noted.1.dispatchingInstrs config }
  | .stage .operateLsq => { log with written := log.written ++ noted.1.writing config }
  | _ => log

def storeLogs {Module : Type} (config : Config) (hooks : CoreModules Module) :
    Machine ((O3Cpu Module × History) × StoreLog) Step :=
  (histories config hooks).record (noteStores config)

/-- What was written and what the store queue holds are what was dispatched. -/
structure StoresLogged {Module : Type} (noted : (O3Cpu Module × History) × StoreLog) : Prop where
  stream : noted.2.written ++ sqOperands noted.1.1.sq =
    noted.2.dispatched.flatMap OooModelInstr.storeOperands
  dispatched : ids noted.2.dispatched = noted.1.2.retired ++ ids noted.1.1.rob

namespace O3Cpu

variable {Module : Type} (config : Config) (hooks : CoreModules Module)

/-! ### Writes -/

theorem issueWrite_appends {bus issued : Channel} {packet : Request}
    (sent : issueWrite config bus packet = some issued) :
    ∃ write : Request, issued = { bus with wq := bus.wq ++ [write] } ∧
      (write.instrId, write.vAddress) = (packet.instrId, packet.vAddress) :=
  ⟨_, addWq_appends sent, rfl⟩

/-- The stores that leave the queue are those whose writes are accepted, in
order, and every one of them was attempted. -/
theorem completeStores_writes (complete : LsqEntry → Bool) (bandwidth : Nat) (bus : Channel)
    (sq : List LsqEntry) :
    ∃ gone writes, sq = gone ++ (completeStores config complete bandwidth bus sq).1 ∧
      (completeStores config complete bandwidth bus sq).2 = { bus with wq := bus.wq ++ writes } ∧
      writes.map (fun packet => (packet.instrId, packet.vAddress)) = sqOperands gone ∧
      gone <+: writeAttempts config complete bandwidth bus sq := by
  have nothing : ∀ (bus : Channel) (sq attempted : List LsqEntry), ∃ (gone : List LsqEntry)
      (writes : List Request), sq = gone ++ sq ∧ bus = { bus with wq := bus.wq ++ writes } ∧
        writes.map (fun packet => (packet.instrId, packet.vAddress)) = sqOperands gone ∧
          gone <+: attempted := by
    intro bus sq attempted
    refine ⟨[], [], rfl, ?_, rfl, List.nil_prefix⟩
    rw [List.append_nil]
  induction sq generalizing bandwidth bus with
  | nil =>
      cases bandwidth with
      | zero => exact nothing bus [] _
      | succ bandwidth => exact nothing bus [] _
  | cons entry rest ih =>
      cases bandwidth with
      | zero => exact nothing bus (entry :: rest) _
      | succ bandwidth =>
          unfold completeStores writeAttempts
          cases isComplete : complete entry with
          | false => exact nothing bus (entry :: rest) _
          | true =>
              rw [if_pos rfl, if_pos rfl]
              cases sent : issueWrite config bus (storePacket entry) with
              | none => exact nothing bus (entry :: rest) _
              | some issued =>
                  obtain ⟨write, appended, isWrite⟩ := issueWrite_appends config sent
                  obtain ⟨gone, writes, split, last, same, attempted⟩ := ih bandwidth issued
                  refine ⟨entry :: gone, write :: writes, congrArg (List.cons entry) split, ?_, ?_,
                    ?_⟩
                  · dsimp only
                    rw [last, appended]
                    dsimp only
                    rw [List.append_assoc, List.singleton_append]
                  · rw [List.map_cons, same, isWrite]
                    rfl
                  · rw [Option.elim_some]
                    exact (List.prefix_cons_inj entry).mpr attempted

theorem writeAttempts_complete (complete : LsqEntry → Bool) (bandwidth : Nat) (bus : Channel)
    (sq : List LsqEntry) :
    ∀ entry ∈ writeAttempts config complete bandwidth bus sq, entry ∈ sq ∧ complete entry = true := by
  induction sq generalizing bandwidth bus with
  | nil =>
      cases bandwidth with
      | zero =>
          intro entry member
          cases member
      | succ bandwidth =>
          intro entry member
          cases member
  | cons first rest ih =>
      cases bandwidth with
      | zero =>
          intro entry member
          cases member
      | succ bandwidth =>
          intro entry member
          unfold writeAttempts at member
          split at member
          · rename_i isComplete
            rcases List.mem_cons.mp member with isFirst | later
            · rw [isFirst]
              exact ⟨List.mem_cons_self, isComplete⟩
            · cases sent : issueWrite config bus (storePacket first) with
              | none =>
                  rw [sent] at later
                  cases later
              | some issued =>
                  rw [sent] at later
                  obtain ⟨among, found⟩ := ih bandwidth issued entry later
                  exact ⟨List.mem_cons_of_mem first among, found⟩
          · cases member

theorem issueLoads_writes (time : Nat) (loads : Nat × Channel) (lq : List (Option LsqEntry))
    (result : List (Option LsqEntry) × (Nat × Channel))
    (ran : Queue.sweep (issueLoad config time) loads lq = some result) :
    result.2.2.wq = loads.2.wq := by
  apply Queue.sweep_invariant (issueLoad config time)
    (fun _ (reached : Nat × Channel) => reached.2.wq = loads.2.wq) ?_ [] lq loads result rfl ran
  intro front entry rest reached visited next kept step
  unfold issueLoad at step
  split at step
  · cases step
    exact kept
  · split at step
    · split at step
      · rename_i issued sent
        cases step
        have appended := addRq_appends sent
        rw [appended]
        exact kept
      · cases step
        exact kept
    · cases step
      exact kept

theorem finishedQueue_operands (state : O3Cpu Module) :
    sqOperands (state.finishedQueue config) = sqOperands state.sq := by
  have whole := congrArg sqOperands (finishing_split config state)
  rw [← whole]
  unfold finishedQueue sqOperands
  simp only [List.map_append, List.map_map, List.append_assoc]
  rfl

theorem operateLsq_writes (state next : O3Cpu Module) (ran : state.operateLsq config = some next) :
    state.writing config ++ sqOperands next.sq = sqOperands state.sq ∧
      ∃ accepted, accepted <+: state.attempts config ∧
        state.writing config = sqOperands accepted := by
  obtain ⟨memory, completed, loaded, _finished, completes, issued, same⟩ :=
    operateLsq_parts config state next ran
  obtain ⟨gone, writes, split, bus, written, attempted⟩ := completeStores_writes config
    state.isComplete (config.sqWidth - (state.finishing config).length) state.l1dBus
    (state.finishedQueue config)
  rw [completes] at split bus
  have loads := issueLoads_writes config _ _ _ _ issued
  have grown : next.l1dBus.wq = state.l1dBus.wq ++ writes := by
    rw [same]
    exact loads.trans (congrArg Channel.wq bus)
  have left : next.sq = completed.1 := by rw [same]
  have accepted : state.writing config = sqOperands gone := by
    unfold writing
    rw [ran, Option.elim_some, grown, List.drop_left, written]
  refine ⟨?_, gone, attempted, accepted⟩
  rw [accepted, left, ← finishedQueue_operands config, split]
  exact List.map_append.symm

/-- A write is attempted only for a store of a retired instruction that has
finished. -/
theorem attempts_retired {state : O3Cpu Module} (accounted : state.Accounted) :
    ∀ entry ∈ state.attempts config, entry.fetchIssued = true ∧
      entry.operand ∈ sqOperands state.sq ∧ isRetired state.rob entry = true := by
  intro entry member
  obtain ⟨among, complete⟩ := writeAttempts_complete config state.isComplete _ _ _ entry member
  have retired : isRetired state.rob entry = true := (Bool.and_eq_true_iff.mp complete).1
  refine ⟨?_, ?_, retired⟩
  · rcases List.mem_append.mp among with front | later
    · rcases List.mem_append.mp front with issued | finishes
      · exact List.mem_takeWhile_imp issued
      · obtain ⟨older, _inFinishing, same⟩ := List.mem_map.mp finishes
        rw [← same]
    · have inQueue : entry ∈ state.sq :=
        (List.dropWhile_suffix _).subset (List.mem_of_mem_drop later)
      have sameIds : (accountsOf state.rob).map (fun account => account.instrId) =
          ids state.rob := by
        unfold accountsOf
        rw [List.map_map]
        rfl
      exact retired_finished state.rob (accountsOf state.rob) sameIds accounted entry inQueue
        retired
  · rw [← finishedQueue_operands config]
    exact List.mem_map.mpr ⟨entry, among, rfl⟩

/-! ### Dispatch -/

theorem scheduleLoad_operands {schedule next : MemorySchedule} {smem : Address}
    (ran : schedule.scheduleLoad smem = some next) :
    sqOperands next.sq = sqOperands schedule.sq := by
  obtain ⟨_free, placed⟩ := MemorySchedule.scheduleLoad_places_as ran
  cases placed with
  | alone _absent placed => rw [placed]
  | forwarded _index _store _youngest _finished _room placed => rw [placed]
  | bound index store youngest _pending _older placed =>
      rw [placed]
      unfold sqOperands
      dsimp only
      apply List.ext_getElem?
      intro other
      rw [List.getElem?_map, List.getElem?_map]
      by_cases here : index = other
      · rw [← here, youngest.present,
          List.getElem?_set_self (List.getElem?_eq_some_iff.mp youngest.present).1]
        rfl
      · rw [List.getElem?_set_ne here]

/-- What dispatch adds to the store queue is what it adds to the reorder buffer. -/
theorem dispatchFront_stores (state next : O3Cpu Module) (instr : OooModelInstr)
    (rest : List OooModelInstr) (ran : state.dispatchFront config instr rest = some next) :
    ∃ entered, next.rob = state.rob ++ [entered] ∧
      sqOperands next.sq = sqOperands state.sq ++ entered.storeOperands := by
  obtain ⟨schedule, scheduled, same⟩ := Option.map_eq_some_iff.mp ran
  have kept := doMemoryScheduling_withoutOps _ schedule scheduled
  obtain ⟨loaded, loads, stored⟩ := Option.map_eq_some_iff.mp scheduled
  rw [MemorySchedule.scheduleStores_queue] at stored
  have before : sqOperands loaded.sq = sqOperands state.sq ∧
      loaded.instr.withoutOps = instr.withoutOps :=
    Queue.foldlM_invariant MemorySchedule.scheduleLoad
      (fun reached => sqOperands reached.sq = sqOperands state.sq ∧
        reached.instr.withoutOps = instr.withoutOps) _
      (fun reached smem _member later holds step =>
        ⟨(scheduleLoad_operands step).trans holds.1,
          (scheduleLoad_withoutOps reached later smem step).trans holds.2⟩)
      { instr, lq := state.lq, sq := state.sq } loaded ⟨rfl, rfl⟩ loads
  refine ⟨_, by rw [← same], ?_⟩
  have id : loaded.instr.instrId = schedule.instr.instrId := by rw [← stored]
  have memory := congrArg OooModelInstr.destinationMemory kept
  change schedule.instr.destinationMemory = instr.destinationMemory at memory
  have left : next.sq = schedule.sq := by rw [← same]
  have grown : schedule.sq = loaded.sq ++ instr.destinationMemory.map loaded.newEntry := by
    rw [← stored]
  have placed : sqOperands (instr.destinationMemory.map loaded.newEntry) =
      schedule.instr.storeOperands := by
    unfold sqOperands OooModelInstr.storeOperands
    rw [List.map_map, memory, ← id]
    rfl
  rw [left, grown, ← before.1]
  change sqOperands (loaded.sq ++ _) = sqOperands loaded.sq ++ schedule.instr.storeOperands
  rw [← placed]
  exact List.map_append

theorem dispatchLoop_stores (bandwidth : Nat) (state next : O3Cpu Module)
    (ran : dispatchLoop config bandwidth state = some next) :
    ∃ entered, next.rob = state.rob ++ entered ∧
      sqOperands next.sq = sqOperands state.sq ++ entered.flatMap OooModelInstr.storeOperands := by
  induction bandwidth generalizing state with
  | zero =>
      cases ran
      exact ⟨[], (List.append_nil _).symm, (List.append_nil _).symm⟩
  | succ bandwidth ih =>
      unfold dispatchLoop at ran
      split at ran
      · cases ran
        exact ⟨[], (List.append_nil _).symm, (List.append_nil _).symm⟩
      · rename_i instr rest front
        split at ran
        · obtain ⟨middle, first, remaining⟩ := Option.bind_eq_some_iff.mp ran
          obtain ⟨newest, rob, sq⟩ := dispatchFront_stores config state middle instr rest first
          obtain ⟨others, robLater, sqLater⟩ := ih middle remaining
          refine ⟨newest :: others, ?_, ?_⟩
          · rw [robLater, rob, List.append_assoc, List.singleton_append]
          · rw [sqLater, sq, List.flatMap_cons, List.append_assoc]
        · cases ran
          exact ⟨[], (List.append_nil _).symm, (List.append_nil _).symm⟩

/-! ### Program order -/

theorem StoresLogged.owner {noted : (O3Cpu Module × History) × StoreLog}
    (logged : StoresLogged noted) {instrId : Nat} {address : Address}
    (member : (instrId, address) ∈ sqOperands noted.1.1.sq) :
    instrId ∈ noted.1.2.retired ++ ids noted.1.1.rob := by
  have listed : (instrId, address) ∈ noted.2.dispatched.flatMap OooModelInstr.storeOperands := by
    rw [← logged.stream]
    exact List.mem_append_right _ member
  obtain ⟨instr, among, operand⟩ := List.mem_flatMap.mp listed
  obtain ⟨dmem, _isOperand, same⟩ := List.mem_map.mp operand
  rw [← logged.dispatched]
  exact List.mem_map.mpr ⟨instr, among, congrArg Prod.fst same⟩

theorem InOrder.dispatched_first {config : Config} {state : O3Cpu Module} {history : History}
    (inOrder : InOrder config state.order history) :
    ∃ others, ((history.retired ++ ids state.rob) ++ (ids state.dispatchBuffer ++ others)).Pairwise
      (fun earlier later => earlier < later) := by
  have all := inOrder.increasing
  rw [← inOrder.stream] at all
  unfold Order.pipeline at all
  simp only [List.append_assoc] at all
  rw [← List.append_assoc] at all
  exact ⟨_, all⟩

theorem InOrder.dispatched_increasing {config : Config} {state : O3Cpu Module} {history : History}
    (inOrder : InOrder config state.order history) :
    (history.retired ++ ids state.rob).Pairwise (fun earlier later => earlier < later) := by
  obtain ⟨others, all⟩ := InOrder.dispatched_first inOrder
  exact (List.pairwise_append.mp all).1

theorem InOrder.dispatched_lt {config : Config} {state : O3Cpu Module} {history : History}
    (inOrder : InOrder config state.order history) {earlier later : Nat}
    (dispatched : earlier ∈ history.retired ++ ids state.rob)
    (waiting : later ∈ ids state.dispatchBuffer) : earlier < later := by
  obtain ⟨others, all⟩ := InOrder.dispatched_first inOrder
  exact (List.pairwise_append.mp all).2.2 earlier dispatched later
    (List.mem_append_left _ waiting)

/-- An instruction that was dispatched and is older than the reorder buffer has
retired. -/
theorem retired_of_isRetired {config : Config} {state : O3Cpu Module} {history : History}
    (inOrder : InOrder config state.order history) {entry : LsqEntry}
    (dispatched : entry.instrId ∈ history.retired ++ ids state.rob)
    (retired : isRetired state.rob entry = true) : entry.instrId ∈ history.retired := by
  rcases List.mem_append.mp dispatched with done | inRob
  · exact done
  · have sorted := inOrder.sorted.rob
    change (ids state.rob).Pairwise _ at sorted
    unfold isRetired at retired
    cases rob : state.rob with
    | nil =>
        rw [rob] at inRob
        cases inRob
    | cons front rest =>
        rw [rob] at inRob retired sorted
        have less : entry.instrId < front.instrId := of_decide_eq_true retired
        rcases List.mem_cons.mp inRob with isFront | later
        · exact absurd isFront (Nat.ne_of_lt less)
        · have after : front.instrId < entry.instrId :=
            (List.pairwise_cons.mp sorted).1 entry.instrId later
          omega

theorem StoresLogged.sorted {noted : (O3Cpu Module × History) × StoreLog}
    (logged : StoresLogged noted)
    (increasing : (ids noted.2.dispatched).Pairwise (fun earlier later => earlier < later)) :
    noted.1.1.sq.Pairwise (fun earlier later => earlier.instrId ≤ later.instrId) := by
  have all : (noted.2.dispatched.flatMap OooModelInstr.storeOperands).Pairwise
      (fun earlier later => earlier.1 ≤ later.1) := by
    rw [List.pairwise_flatMap]
    constructor
    · intro instr _member
      unfold OooModelInstr.storeOperands
      rw [List.pairwise_map]
      exact List.pairwise_of_forall (fun _ _ => Nat.le_refl _)
    · apply List.Pairwise.imp ?_ (List.pairwise_map.mp increasing)
      intro earlier later less first inEarlier second inLater
      obtain ⟨_dmem, _isFirst, sameFirst⟩ := List.mem_map.mp inEarlier
      obtain ⟨_dmem', _isSecond, sameSecond⟩ := List.mem_map.mp inLater
      rw [← sameFirst, ← sameSecond]
      exact Nat.le_of_lt less
  rw [← logged.stream] at all
  have queue := (List.pairwise_append.mp all).2.1
  unfold sqOperands at queue
  rw [List.pairwise_map] at queue
  exact queue

/-! ### Runs -/

theorem runStage_storesLogged (noted next : (O3Cpu Module × History) × StoreLog) (stage : Stage)
    (logged : StoresLogged noted)
    (ran : noted.1.1.runStage config hooks stage = some next.1.1)
    (history : noteOrder config noted.1.1 (.stage stage) noted.1.2 = next.1.2)
    (log : noteStores config noted.1 (.stage stage) noted.2 = next.2) : StoresLogged next := by
  have quiet : sqOperands next.1.1.sq = sqOperands noted.1.1.sq →
      ids next.1.1.rob = ids noted.1.1.rob → noted.1.2 = next.1.2 → noted.2 = next.2 →
        StoresLogged next := by
    intro stores rob sameHistory sameLog
    constructor
    · rw [← sameLog, stores]
      exact logged.stream
    · rw [← sameLog, ← sameHistory, rob]
      exact logged.dispatched
  have memory : LeavesMemory stage → sqOperands next.1.1.sq = sqOperands noted.1.1.sq := by
    intro leaves
    rw [(runStage_sameMemory config hooks noted.1.1 next.1.1 stage leaves ran).sq]
  have front : stage.isFrontEnd = true → ids next.1.1.rob = ids noted.1.1.rob := by
    intro isFront
    obtain ⟨_, _, _, _, _, _, _, _, same⟩ :=
      frontEnd_shape config hooks noted.1.1 next.1.1 stage isFront ran
    rw [same]
  have inRob : ∀ {state other : O3Cpu Module}, other.order = state.order →
      ids other.rob = ids state.rob := fun same => congrArg Order.rob same
  cases stage with
  | retireRob =>
      obtain ⟨moved, retired⟩ := retireRob_order config noted.1.1 next.1.1 ran
      constructor
      · rw [← log, memory trivial]
        exact logged.stream
      · have left : ids next.1.1.rob = (ids noted.1.1.rob).drop
            (noted.1.1.retiring config).length := congrArg Order.rob moved
        rw [← log, ← history, left]
        change ids noted.2.dispatched = (noted.1.2.retired ++ ids (noted.1.1.retiring config)) ++ _
        rw [retired, List.append_assoc]
        change _ = noted.1.2.retired ++ ((ids noted.1.1.rob).take _ ++ (ids noted.1.1.rob).drop _)
        rw [List.take_append_drop]
        exact logged.dispatched
  | completeInflightInstruction =>
      exact quiet (memory trivial)
        (inRob (completeInflightInstruction_order config noted.1.1 next.1.1 ran)) history log
  | executeInstruction =>
      exact quiet (sqOperands_untimed (executeInstruction_queues config noted.1.1 next.1.1 ran).2)
        (inRob (executeInstruction_order config noted.1.1 next.1.1 ran)) history log
  | scheduleInstruction beyond =>
      exact quiet (memory trivial)
        (inRob (scheduleInstruction_order config beyond noted.1.1 next.1.1 ran)) history log
  | handleMemoryReturn =>
      have rob := inRob (handleMemoryReturn_order config noted.1.1 next.1.1 ran)
      obtain ⟨returned, _finished, same⟩ := Option.map_eq_some_iff.mp ran
      have stores : next.1.1.sq = noted.1.1.sq := by rw [← same]
      exact quiet (congrArg sqOperands stores) rob history log
  | operateLsq =>
      have writes := operateLsq_writes config noted.1.1 next.1.1 ran
      have rob := inRob (operateLsq_order config noted.1.1 next.1.1 ran)
      constructor
      · rw [← log]
        change (noted.2.written ++ noted.1.1.writing config) ++ _ = _
        rw [List.append_assoc, writes.1]
        exact logged.stream
      · rw [← log, ← history, rob]
        exact logged.dispatched
  | dispatchInstruction =>
      obtain ⟨entered, rob, stores⟩ := dispatchLoop_stores config config.dispatchWidth noted.1.1
        next.1.1 ran
      have isDispatch : noted.1.1.dispatchInstruction config = some next.1.1 := ran
      have added : noted.1.1.dispatchingInstrs config = entered := by
        unfold dispatchingInstrs
        rw [isDispatch, Option.elim_some, rob, List.drop_left]
      have grown : ids (noted.2.dispatched ++ entered) = ids noted.2.dispatched ++ ids entered :=
        List.map_append
      have robGrown : ids next.1.1.rob = ids noted.1.1.rob ++ ids entered := by
        rw [rob]
        exact List.map_append
      constructor
      · rw [← log]
        change noted.2.written ++ _ = (noted.2.dispatched ++ noted.1.1.dispatchingInstrs config).flatMap _
        rw [added, stores, ← List.append_assoc, logged.stream, List.flatMap_append]
      · rw [← log, ← history]
        change ids (noted.2.dispatched ++ noted.1.1.dispatchingInstrs config) = _
        rw [added, grown, logged.dispatched, robGrown, List.append_assoc]
        rfl
  | decodeInstruction => exact quiet (memory trivial) (front rfl) history log
  | promoteToDecode => exact quiet (memory trivial) (front rfl) history log
  | fetchInstruction => exact quiet (memory trivial) (front rfl) history log
  | checkDib => exact quiet (memory trivial) (front rfl) history log
  | initializeInstruction => exact quiet (memory trivial) (front rfl) history log

/-- What a run keeps of the stores and of what they rest on. -/
structure Recorded (noted : (O3Cpu Module × History) × StoreLog) : Prop where
  kept : Kept config noted.1
  logged : StoresLogged noted

theorem Recorded.step (noted next : (O3Cpu Module × History) × StoreLog) (label : Step)
    (recorded : Recorded config noted)
    (stepped : (storeLogs config hooks).step noted label = some next) : Recorded config next := by
  obtain ⟨moved, note⟩ := (Machine.record_step_iff _ _ _ _ _).mp stepped
  refine ⟨recorded.kept.step config hooks noted.1 next.1 label moved, ?_⟩
  have logged := recorded.logged
  obtain ⟨_continues, ordered⟩ := (Machine.restrict_step_iff _ _ _ _ _).mp moved
  obtain ⟨ran, history⟩ := (Machine.record_step_iff _ _ _ _ _).mp ordered
  cases label with
  | stage stage =>
      exact runStage_storesLogged config hooks noted next stage logged ran history note
  | event event =>
      obtain ⟨_lq, sq, rob⟩ := occur_sameQueues config noted.1.1 next.1.1 event ran
      constructor
      · rw [← note, sq]
        exact logged.stream
      · rw [← note, ← history, rob]
        cases event with
        | tick => exact logged.dispatched
        | read instrId record => exact logged.dispatched
        | serve bus rq pq wq => exact logged.dispatched
        | answer bus response => exact logged.dispatched
        | beginPhase warmup => exact logged.dispatched

theorem storeLogs_recorded (l1iBus l1dBus : Channel) (modules : Module) (labels : List Step)
    (reached : (O3Cpu Module × History) × StoreLog)
    (ran : (storeLogs config hooks).run
      ((O3Cpu.init config l1iBus l1dBus modules, {}), {}) labels = some reached) :
    Recorded config reached :=
  (storeLogs config hooks).run_invariant (Recorded config)
    (fun noted label next recorded stepped => recorded.step config hooks noted next label stepped)
    labels _ reached ⟨init_kept config l1iBus l1dBus modules, rfl, rfl⟩ ran

/-- In every run what was written, and then what the store queue holds, are the
store operands of what was dispatched, in program order. The stores that have
finished come first, and a write is attempted only for such a store whose
instruction has retired. -/
theorem storeLogs_written (l1iBus l1dBus : Channel) (modules : Module) (labels : List Step)
    (reached : (O3Cpu Module × History) × StoreLog)
    (ran : (storeLogs config hooks).run
      ((O3Cpu.init config l1iBus l1dBus modules, {}), {}) labels = some reached) :
    reached.2.written ++ sqOperands reached.1.1.sq =
        reached.2.dispatched.flatMap OooModelInstr.storeOperands ∧
      (ids reached.2.dispatched = reached.1.2.retired ++ ids reached.1.1.rob ∧
        (ids reached.2.dispatched).Pairwise (fun earlier later => earlier < later)) ∧
      reached.1.1.sq.Pairwise (fun earlier later => earlier.instrId ≤ later.instrId) ∧
      reached.1.1.sq.Pairwise (fun earlier later =>
        later.fetchIssued = true → earlier.fetchIssued = true) ∧
      (∃ accepted, accepted <+: reached.1.1.attempts config ∧
        reached.1.1.writing config = sqOperands accepted) ∧
      ∀ entry ∈ reached.1.1.attempts config,
        entry.fetchIssued = true ∧ entry.instrId ∈ reached.1.2.retired := by
  obtain ⟨kept, logged⟩ :=
    storeLogs_recorded config hooks l1iBus l1dBus modules labels reached ran
  have increasing : (ids reached.2.dispatched).Pairwise (fun earlier later => earlier < later) := by
    rw [logged.dispatched]
    exact InOrder.dispatched_increasing kept.inOrder
  have accounts : Accounts (fun _ => 0) (accountsOf reached.1.1.rob) reached.1.1.lq reached.1.1.sq :=
    kept.accounted
  refine ⟨logged.stream, ⟨logged.dispatched, increasing⟩, StoresLogged.sorted logged increasing,
    accounts.finishedFirst, ?_, ?_⟩
  · obtain ⟨next, operates, _after⟩ := operateLsq_accounted config reached.1.1 kept.accounted
    exact (operateLsq_writes config reached.1.1 next operates).2
  · intro entry member
    obtain ⟨finished, inQueue, retired⟩ := attempts_retired config kept.accounted entry member
    exact ⟨finished, retired_of_isRetired kept.inOrder (StoresLogged.owner logged inQueue) retired⟩

end O3Cpu

private theorem storeAndLoad_writes :
    ((storeLogs smallCore quietModules).run ((smallInit, {}), {})
      (storeAndLoad ++ smallCycles 14)).any (fun reached =>
        decide (reached.2.written ≠ [])) = true := by
  decide +kernel

theorem storeLogs_written_storeAndLoad :
    ∃ reached, (storeLogs smallCore quietModules).run ((smallInit, {}), {})
        (storeAndLoad ++ smallCycles 14) = some reached ∧ reached.2.written ≠ [] ∧
      reached.2.written ++ sqOperands reached.1.1.sq =
        reached.2.dispatched.flatMap OooModelInstr.storeOperands ∧
      (ids reached.2.dispatched = reached.1.2.retired ++ ids reached.1.1.rob ∧
        (ids reached.2.dispatched).Pairwise (fun earlier later => earlier < later)) ∧
      reached.1.1.sq.Pairwise (fun earlier later => earlier.instrId ≤ later.instrId) ∧
      reached.1.1.sq.Pairwise (fun earlier later =>
        later.fetchIssued = true → earlier.fetchIssued = true) ∧
      (∃ accepted, accepted <+: reached.1.1.attempts smallCore ∧
        reached.1.1.writing smallCore = sqOperands accepted) ∧
      ∀ entry ∈ reached.1.1.attempts smallCore,
        entry.fetchIssued = true ∧ entry.instrId ∈ reached.1.2.retired := by
  obtain ⟨reached, ran, written⟩ := (Option.any_eq_true _ _).mp storeAndLoad_writes
  exact ⟨reached, ran, of_decide_eq_true written, O3Cpu.storeLogs_written smallCore quietModules
    smallBus smallBus () _ reached ran⟩

end ChampSim.Core

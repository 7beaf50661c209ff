/-
Stores that forward to loads, over whole runs.

A load that dispatch binds to a store waits in its slot, and is not sent, until
the step in which that store finishes. A load that is bound to no store stays
so.
-/

import ChampSim.Core.LoadReleases

set_option autoImplicit false

namespace ChampSim.Core

open Transition Cache

/-! ### Waiting for a store -/

/-- A load is in its slot, has not been sent, and waits for a store of its
address that has not finished and holds the slot. -/
structure Awaiting (lq : List (Option LsqEntry)) (sq : List LsqEntry) (slot : Nat)
    (load : LsqEntry) : Prop where
  waits : ∃ entry, lq[slot]? = some (some entry) ∧ entry.untimed = load
  unsent : load.fetchIssued = false
  held : ∃ store ∈ sq, store.fetchIssued = false ∧ load.producerId = some store.instrId ∧
    store.virtualAddress = load.virtualAddress ∧ slot ∈ store.lqDependOnMe

namespace Awaiting

variable {lq later : List (Option LsqEntry)} {sq grown : List LsqEntry} {slot : Nat}
  {load : LsqEntry}

theorem extend (awaiting : Awaiting lq sq slot load) (extended : Extends lq later sq grown) :
    Awaiting later grown slot load := by
  obtain ⟨entry, present, isLoad⟩ := awaiting.waits
  obtain ⟨store, member, pending, producer, address, holds⟩ := awaiting.held
  obtain ⟨dependents, more, among⟩ := extended.stores store member
  exact ⟨⟨entry, extended.loads slot entry present, isLoad⟩, awaiting.unsent,
    _, among, pending, producer, address, more holds⟩

theorem retime (awaiting : Awaiting lq sq slot load)
    (loads : later.map (Option.map LsqEntry.untimed) = lq.map (Option.map LsqEntry.untimed))
    (stores : grown.map LsqEntry.untimed = sq.map LsqEntry.untimed) :
    Awaiting later grown slot load := by
  obtain ⟨entry, present, isLoad⟩ := awaiting.waits
  obtain ⟨store, member, pending, producer, address, holds⟩ := awaiting.held
  refine ⟨?_, awaiting.unsent, ?_⟩
  · have look := congrArg (fun entries => entries[slot]?) loads
    rw [List.getElem?_map, List.getElem?_map, present] at look
    obtain ⟨after, there, isAfter⟩ := Option.map_eq_some_iff.mp look
    obtain ⟨timed, isTimed, same⟩ := Option.map_eq_some_iff.mp isAfter
    rw [isTimed] at there
    exact ⟨timed, there, same.trans isLoad⟩
  · have listed : store.untimed ∈ grown.map LsqEntry.untimed := by
      rw [stores]
      exact List.mem_map_of_mem member
    obtain ⟨timed, among, same⟩ := List.mem_map.mp listed
    have issued := congrArg LsqEntry.fetchIssued same
    have id := congrArg LsqEntry.instrId same
    have sameAddress := congrArg LsqEntry.virtualAddress same
    have dependents := congrArg LsqEntry.lqDependOnMe same
    change timed.fetchIssued = store.fetchIssued at issued
    change timed.instrId = store.instrId at id
    change timed.virtualAddress = store.virtualAddress at sameAddress
    change timed.lqDependOnMe = store.lqDependOnMe at dependents
    refine ⟨timed, among, issued.trans pending, ?_, sameAddress.trans address, ?_⟩
    · rw [producer, id]
    · rw [dependents]
      exact holds

theorem entry_fields (awaiting : Awaiting lq sq slot load) :
    ∃ entry, lq[slot]? = some (some entry) ∧ entry.untimed = load ∧ entry.fetchIssued = false ∧
      entry.producerId ≠ none := by
  obtain ⟨entry, present, isLoad⟩ := awaiting.waits
  obtain ⟨store, _member, _pending, producer, _address, _holds⟩ := awaiting.held
  have issued := congrArg LsqEntry.fetchIssued isLoad
  have bound := congrArg LsqEntry.producerId isLoad
  change entry.fetchIssued = load.fetchIssued at issued
  change entry.producerId = load.producerId at bound
  refine ⟨entry, present, isLoad, issued.trans awaiting.unsent, ?_⟩
  rw [bound, producer]
  intro impossible
  cases impossible

end Awaiting

theorem MemorySchedule.scheduleLoad_awaiting {schedule next : MemorySchedule} {smem : Address}
    {index : Nat} {store : LsqEntry} (ran : schedule.scheduleLoad smem = some next)
    (youngest : Youngest smem schedule.sq index store) (pending : store.fetchIssued = false) :
    Awaiting next.lq next.sq schedule.freeSlot
      { schedule.newEntry smem with producerId := some store.instrId } := by
  obtain ⟨isFree, places⟩ := scheduleLoad_places_as ran
  have within := (List.getElem?_eq_some_iff.mp isFree).1
  cases places with
  | alone absent _placed =>
      exact absurd youngest.address (absent store (List.mem_of_getElem? youngest.present))
  | forwarded other chosen found finished _room _placed =>
      rw [← (youngest.unique found).2, pending] at finished
      cases finished
  | bound other chosen found _pending _older placed =>
      obtain ⟨sameIndex, sameStore⟩ := youngest.unique found
      have inside := (List.getElem?_eq_some_iff.mp youngest.present).1
      rw [placed, ← sameIndex, ← sameStore]
      refine ⟨⟨_, List.getElem?_set_self within, rfl⟩, rfl, ?_⟩
      exact ⟨_, List.mem_of_getElem? (List.getElem?_set_self inside), pending, rfl,
        youngest.address, List.mem_append_right _ List.mem_cons_self⟩

def Step.isOperateLsq : Step → Bool
  | .stage .operateLsq => true
  | _ => false

/-- The load leaves its slot, and its instruction has completed more operations. -/
structure Completes {Module : Type} (state next : O3Cpu Module) (slot : Nat) (load : LsqEntry) :
    Prop where
  left : next.lq[slot]? = some none
  completed : ∃ instr ∈ state.rob, ∃ finished ∈ next.rob, instr.instrId = load.instrId ∧
    finished.withoutOps = instr.withoutOps ∧ instr.completedMemOps < finished.completedMemOps

namespace O3Cpu

variable {Module : Type} (config : Config) (hooks : CoreModules Module)

/-! ### Waiting and the stages -/

theorem dispatchInstruction_placed {history : History} (state next : O3Cpu Module)
    (inOrder : InOrder config state.order history)
    (owned : ∀ operand ∈ sqOperands state.sq, operand.1 ∈ history.retired ++ ids state.rob)
    (ran : state.dispatchInstruction config = some next) :
    Placed state next (state.dispatchPlacements config) :=
  dispatchLoop_placed config config.dispatchWidth state next ⟨inOrder, owned⟩ ran

theorem operateLsq_completes (state next : O3Cpu Module) (accounted : state.Accounted)
    (ran : state.operateLsq config = some next) {slot : Nat} {load : LsqEntry}
    (awaiting : Awaiting state.lq state.sq slot load) (releases : slot ∈ state.released config) :
    Completes state next slot load := by
  obtain ⟨keeps, emptied, _stays⟩ := operateLsq_slots config state next ran
  have left := emptied slot releases
  refine ⟨left, ?_⟩
  obtain ⟨entry, present, isLoad⟩ := awaiting.waits
  have id := congrArg LsqEntry.instrId isLoad
  change entry.instrId = load.instrId at id
  have before : Accounts (fun _ => 0) (accountsOf state.rob) state.lq state.sq := accounted
  obtain ⟨reached, operates, kept⟩ := operateLsq_accounted config state accounted
  cases operates.symm.trans ran
  have after : Accounts (fun _ => 0) (accountsOf next.rob) next.lq next.sq := kept
  obtain ⟨account, member, owner⟩ := before.loadsOwned entry (List.mem_of_getElem? present)
  obtain ⟨instr, inRob, isAccount⟩ := List.mem_map.mp member
  subst isAccount
  change instr.instrId = entry.instrId at owner
  obtain ⟨memory, completed, loaded, finished, _completes, _issued, same⟩ :=
    operateLsq_parts config state next ran
  have looks : withoutOps next.rob = withoutOps state.rob := by
    rw [same]
    exact finishStores_withoutOps _ _ _ finished
  have listed : instr.withoutOps ∈ withoutOps next.rob := by
    rw [looks]
    exact List.mem_map_of_mem inRob
  obtain ⟨done, among, isSame⟩ := List.mem_map.mp listed
  refine ⟨instr, inRob, done, among, owner.trans id, isSame, ?_⟩
  have sameId := congrArg OooModelInstr.instrId isSame
  change done.instrId = instr.instrId at sameId
  have sameOps := congrArg OooModelInstr.numMemOps isSame
  change done.numMemOps = instr.numMemOps at sameOps
  have total := before.balanced instr.account member
  have totalAfter := after.balanced done.account (List.mem_map_of_mem among)
  change instr.completedMemOps + loadsOf state.lq instr.instrId +
    storesOf state.sq instr.instrId + 0 = instr.numMemOps at total
  change done.completedMemOps + loadsOf next.lq done.instrId +
    storesOf next.sq done.instrId + 0 = done.numMemOps at totalAfter
  have fewerLoads := keeps.loadsOf_lt present left
  have fewerStores := operateLsq_storesOf config state next ran instr.instrId
  rw [sameId, sameOps] at totalAfter
  rw [← owner] at fewerLoads
  omega

def Withholds (slot : Nat) (noted : O3Cpu Module × History) (label : Step) : Prop :=
  label.isOperateLsq = true → slot ∉ noted.1.released config

instance (slot : Nat) (noted : O3Cpu Module × History) (label : Step) :
    Decidable (Withholds config slot noted label) :=
  inferInstanceAs (Decidable (_ → _))

theorem runStage_awaiting {history : History} (state next : O3Cpu Module) (stage : Stage)
    (kept : Kept config (state, history))
    (owned : ∀ operand ∈ sqOperands state.sq, operand.1 ∈ history.retired ++ ids state.rob)
    {slot : Nat} {load : LsqEntry} (awaiting : Awaiting state.lq state.sq slot load)
    (withholds : Withholds config slot (state, history) (.stage stage))
    (ran : state.runStage config hooks stage = some next) :
    Awaiting next.lq next.sq slot load := by
  rcases leavesMemory_or stage with leaves | executes | returns | operates | dispatches
  · have same := runStage_sameMemory config hooks state next stage leaves ran
    rw [same.lq, same.sq]
    exact awaiting
  · subst executes
    obtain ⟨loads, stores⟩ := executeInstruction_queues config state next ran
    exact awaiting.retime loads stores
  · subst returns
    obtain ⟨_keeps, stays⟩ := handleMemoryReturn_slots config state next ran
    obtain ⟨memory, _finished, same⟩ := Option.map_eq_some_iff.mp ran
    have stores : next.sq = state.sq := by rw [← same]
    obtain ⟨entry, present, isLoad, unsent, _bound⟩ := awaiting.entry_fields
    rw [stores]
    exact ⟨⟨entry, stays slot entry present unsent, isLoad⟩, awaiting.unsent, awaiting.held⟩
  · subst operates
    have outside : slot ∉ state.released config := withholds rfl
    obtain ⟨_keeps, _emptied, stays⟩ := operateLsq_slots config state next ran
    obtain ⟨entry, present, isLoad, _unsent, bound⟩ := awaiting.entry_fields
    obtain ⟨store, member, pending, producer, address, holds⟩ := awaiting.held
    have waits : store ∉ state.finishing config := fun finishes =>
      outside (List.mem_flatMap.mpr ⟨store, finishes, holds⟩)
    refine ⟨⟨entry, stays slot entry present bound outside, isLoad⟩, awaiting.unsent, store, ?_,
      pending, producer, address, holds⟩
    exact operateLsq_stores config state next kept.accounted ran store member pending waits
  · subst dispatches
    exact awaiting.extend (dispatchInstruction_placed config state next kept.inOrder owned
      ran).extended

/-! ### Loads that wait for no store -/

/-- The load of an instruction in a slot waits for no store. -/
def Unbound (lq : List (Option LsqEntry)) (slot instrId : Nat) : Prop :=
  ∀ entry, lq[slot]? = some (some entry) → entry.instrId = instrId → entry.producerId = none

theorem Unbound.keep {lq later : List (Option LsqEntry)} {slot instrId : Nat}
    (unbound : Unbound lq slot instrId) (keeps : Keeps lq later) : Unbound later slot instrId := by
  intro entry present mine
  obtain ⟨before, there, id, producer⟩ := keeps slot entry present
  exact producer.symm.trans (unbound before there (id.trans mine))

theorem runStage_unbound {history : History} (state next : O3Cpu Module) (stage : Stage)
    (inOrder : InOrder config state.order history) {slot instrId : Nat}
    (dispatched : instrId ∈ history.retired ++ ids state.rob)
    (unbound : Unbound state.lq slot instrId)
    (ran : state.runStage config hooks stage = some next) : Unbound next.lq slot instrId := by
  rcases leavesMemory_or stage with leaves | executes | returns | operates | dispatches
  · rw [(runStage_sameMemory config hooks state next stage leaves ran).lq]
    exact unbound
  · subst executes
    exact unbound.keep (Keeps.untimed (executeInstruction_queues config state next ran).1)
  · subst returns
    exact unbound.keep (handleMemoryReturn_slots config state next ran).1
  · subst operates
    exact unbound.keep (operateLsq_slots config state next ran).1
  · subst dispatches
    intro entry present mine
    rcases dispatchLoop_entries config config.dispatchWidth state next ran slot entry present with
      before | isLater
    · exact unbound entry before mine
    · have younger := InOrder.dispatched_lt inOrder dispatched isLater
      rw [mine] at younger
      exact absurd younger (Nat.lt_irrefl instrId)

/-! ### Reads -/

/-- Only `operate_lsq` sends reads to the data cache: those of the loads that it
marks. -/
def SendsMarked (state next : O3Cpu Module) (stage : Stage) : Prop :=
  ∃ reads : List Request, next.l1dBus.rq = state.l1dBus.rq ++ reads ∧
    reads.map (fun packet => (packet.instrId, packet.vAddress)) =
      if (Step.stage stage).isOperateLsq then
        (List.zipWith sentLoad state.lq next.lq).reduceOption
      else []

theorem dispatchLoop_l1dBus (bandwidth : Nat) (state next : O3Cpu Module)
    (ran : dispatchLoop config bandwidth state = some next) : next.l1dBus = state.l1dBus := by
  induction bandwidth generalizing state with
  | zero =>
      cases ran
      rfl
  | succ bandwidth ih =>
      unfold dispatchLoop at ran
      split at ran
      · cases ran
        rfl
      · split at ran
        · obtain ⟨middle, first, remaining⟩ := Option.bind_eq_some_iff.mp ran
          obtain ⟨schedule, _scheduled, same⟩ := Option.map_eq_some_iff.mp first
          rw [ih middle remaining, ← same]
        · cases ran
          rfl

theorem runStage_sendsMarked (state next : O3Cpu Module) (stage : Stage)
    (ran : state.runStage config hooks stage = some next) : SendsMarked state next stage := by
  have unsent : (Step.stage stage).isOperateLsq = false → next.l1dBus.rq = state.l1dBus.rq →
      SendsMarked state next stage := by
    intro other same
    refine ⟨[], ?_, ?_⟩
    · rw [same, List.append_nil]
    · rw [other, if_neg Bool.false_ne_true]
      rfl
  rcases leavesMemory_or stage with leaves | executes | returns | operates | dispatches
  · have bus := (runStage_sameMemory config hooks state next stage leaves ran).l1dBus
    refine unsent ?_ (by rw [bus])
    cases stage with
    | operateLsq => cases leaves
    | _ => rfl
  · subst executes
    obtain ⟨executing, _swept, same⟩ := Option.map_eq_some_iff.mp ran
    exact unsent rfl (by rw [← same])
  · subst returns
    obtain ⟨memory, _finished, same⟩ := Option.map_eq_some_iff.mp ran
    exact unsent rfl (by rw [← same])
  · subst operates
    exact operateLsq_reads config state next ran
  · subst dispatches
    have bus := dispatchLoop_l1dBus config config.dispatchWidth state next ran
    exact unsent rfl (by rw [bus])

/-! ### Runs -/

theorem noteStores_dispatched (noted : O3Cpu Module × History) (label : Step) (log : StoreLog)
    (instrId : Nat) (listed : instrId ∈ ids log.dispatched) :
    instrId ∈ ids (noteStores config noted label log).dispatched := by
  unfold noteStores
  split
  · have grown : ids (log.dispatched ++ noted.1.dispatchingInstrs config) =
        ids log.dispatched ++ ids (noted.1.dispatchingInstrs config) := List.map_append
    rw [grown]
    exact List.mem_append_left _ listed
  · exact listed
  · exact listed

/-- From a state on the load of an instruction in a slot waits for no store, and
no store holds the slot. -/
def NeverBound (after : O3Cpu Module × History) (slot instrId : Nat) : Prop :=
  ∀ (labels : List Step) (later : O3Cpu Module × History),
    (histories config hooks).run after labels = some later →
      ∀ entry, later.1.lq[slot]? = some (some entry) → entry.instrId = instrId →
        entry.producerId = none ∧ slot ∉ waiting later.1.sq

/-- The runs in which the store that holds a slot does not finish. -/
def withheld (slot : Nat) : Machine (O3Cpu Module × History) Step :=
  (histories config hooks).restrict (fun noted label => Withholds config slot noted label)

/-- From a state on a load waits for its store, is never sent, and completes in
the step in which the store finishes. -/
structure WaitsForStore (after : O3Cpu Module × History) (slot : Nat) (load : LsqEntry) : Prop where
  awaits : ∀ (labels : List Step) (later : O3Cpu Module × History),
    (withheld config hooks slot).run after labels = some later →
      Awaiting later.1.lq later.1.sq slot load
  unsent : ∀ (labels : List Step) (later next : O3Cpu Module × History) (label : Step),
    (withheld config hooks slot).run after labels = some later →
      (histories config hooks).step later label = some next →
        (List.zipWith sentLoad later.1.lq next.1.lq)[slot]? = some none
  completes : ∀ (labels : List Step) (later next : O3Cpu Module × History),
    (withheld config hooks slot).run after labels = some later →
      slot ∈ later.1.released config →
        (histories config hooks).step later (.stage .operateLsq) = some next →
          Completes later.1 next.1 slot load

theorem Recorded.owned {noted : O3Cpu Module × History} {log : StoreLog}
    (recorded : Recorded config (noted, log)) :
    ∀ operand ∈ sqOperands noted.1.sq, operand.1 ∈ noted.2.retired ++ ids noted.1.rob :=
  fun _operand member => StoresLogged.owner recorded.logged member

theorem Recorded.next {noted next : O3Cpu Module × History} {log : StoreLog} {label : Step}
    (recorded : Recorded config (noted, log))
    (stepped : (histories config hooks).step noted label = some next) :
    Recorded config (next, noteStores config noted label log) :=
  recorded.step config hooks (noted, log) (next, _) label
    ((Machine.record_step_iff _ _ _ _ _).mpr ⟨stepped, rfl⟩)

theorem step_awaiting {noted next : O3Cpu Module × History} {log : StoreLog} {label : Step}
    (recorded : Recorded config (noted, log)) {slot : Nat} {load : LsqEntry}
    (awaiting : Awaiting noted.1.lq noted.1.sq slot load)
    (withholds : Withholds config slot noted label)
    (stepped : (histories config hooks).step noted label = some next) :
    Awaiting next.1.lq next.1.sq slot load := by
  obtain ⟨_continues, ordered⟩ := (Machine.restrict_step_iff _ _ _ _ _).mp stepped
  obtain ⟨ran, _history⟩ := (Machine.record_step_iff _ _ _ _ _).mp ordered
  cases label with
  | stage stage =>
      exact runStage_awaiting config hooks noted.1 next.1 stage recorded.kept
        (Recorded.owned config recorded) awaiting withholds ran
  | event event =>
      obtain ⟨lq, sq, _rob⟩ := occur_sameQueues config noted.1 next.1 event ran
      rw [lq, sq]
      exact awaiting

theorem withheld_awaiting (labels : List Step) (after later : O3Cpu Module × History)
    {log : StoreLog} (recorded : Recorded config (after, log)) {slot : Nat} {load : LsqEntry}
    (awaiting : Awaiting after.1.lq after.1.sq slot load)
    (ran : (withheld config hooks slot).run after labels = some later) :
    (∃ others, Recorded config (later, others)) ∧ Awaiting later.1.lq later.1.sq slot load := by
  apply (withheld config hooks slot).run_invariant
    (fun noted => (∃ others, Recorded config (noted, others)) ∧
      Awaiting noted.1.lq noted.1.sq slot load) ?_ labels after later
    ⟨⟨log, recorded⟩, awaiting⟩ ran
  rintro noted label next ⟨⟨others, known⟩, waits⟩ stepped
  obtain ⟨withholds, moved⟩ := (Machine.restrict_step_iff _ _ _ _ _).mp stepped
  exact ⟨⟨_, Recorded.next config hooks known moved⟩,
    step_awaiting config hooks known waits withholds moved⟩

theorem waitsForStore_of_awaiting {after : O3Cpu Module × History} {log : StoreLog}
    (recorded : Recorded config (after, log)) {slot : Nat} {load : LsqEntry}
    (awaiting : Awaiting after.1.lq after.1.sq slot load) :
    WaitsForStore config hooks after slot load := by
  have completes : ∀ (later next : O3Cpu Module × History) (others : StoreLog),
      Recorded config (later, others) → Awaiting later.1.lq later.1.sq slot load →
        slot ∈ later.1.released config →
          (histories config hooks).step later (.stage .operateLsq) = some next →
            Completes later.1 next.1 slot load := by
    intro later next others known waits releases stepped
    obtain ⟨_continues, ordered⟩ := (Machine.restrict_step_iff _ _ _ _ _).mp stepped
    obtain ⟨operates, _history⟩ := (Machine.record_step_iff _ _ _ _ _).mp ordered
    exact operateLsq_completes config later.1 next.1 known.kept.accounted operates waits releases
  constructor
  · intro labels later ran
    exact (withheld_awaiting config hooks labels after later recorded awaiting ran).2
  · intro labels later next label ran stepped
    obtain ⟨⟨others, known⟩, waits⟩ :=
      withheld_awaiting config hooks labels after later recorded awaiting ran
    obtain ⟨entry, present, _isLoad, _unsent, _bound⟩ := waits.entry_fields
    rw [List.getElem?_zipWith, present]
    by_cases withholds : Withholds config slot later label
    · obtain ⟨kept, there, _same, unsent, _stillBound⟩ :=
        (step_awaiting config hooks known waits withholds stepped).entry_fields
      have silent : sentLoad (some entry) (some kept) = none := by
        apply if_neg
        rintro ⟨_unsent, sent⟩
        rw [unsent] at sent
        cases sent
      rw [there]
      exact congrArg some silent
    · obtain ⟨isOperate, releases⟩ := Classical.not_imp.mp withholds
      have isStage : label = .stage .operateLsq := by
        unfold Step.isOperateLsq at isOperate
        split at isOperate
        · rfl
        · cases isOperate
      rw [isStage] at stepped
      rw [(completes later next others known waits (not_not.mp releases) stepped).left]
      rfl
  · intro labels later next ran releases stepped
    obtain ⟨⟨others, known⟩, waits⟩ :=
      withheld_awaiting config hooks labels after later recorded awaiting ran
    exact completes later next others known waits releases stepped

theorem neverBound_of_unbound {after : O3Cpu Module × History} {log : StoreLog}
    (recorded : Recorded config (after, log)) {slot instrId : Nat}
    (dispatched : instrId ∈ after.2.retired ++ ids after.1.rob)
    (unbound : Unbound after.1.lq slot instrId) : NeverBound config hooks after slot instrId := by
  intro labels later ran
  obtain ⟨others, recordedRun⟩ := (histories config hooks).exists_recorded_run (noteStores config)
    labels after later log ran
  have kept := (storeLogs config hooks).run_invariant
    (fun noted => Recorded config noted ∧ instrId ∈ ids noted.2.dispatched ∧
      Unbound noted.1.1.lq slot instrId) ?_ labels (after, log) (later, others) ?_ recordedRun
  · intro entry present mine
    have alone := kept.2.2 entry present mine
    refine ⟨alone, ?_⟩
    intro held
    obtain ⟨store, among, holds⟩ := List.mem_flatMap.mp held
    obtain ⟨inQueue, pending⟩ := List.mem_filter.mp among
    have accounts : Accounts (fun _ => 0) (accountsOf later.1.rob) later.1.lq later.1.sq :=
      kept.1.kept.accounted
    obtain ⟨load, there, producer⟩ := accounts.waits store inQueue
      ((Bool.not_eq_true' _).mp pending) slot holds
    rw [present] at there
    cases there
    rw [alone] at producer
    cases producer
  · rintro noted label next ⟨known, listed, waitsForNone⟩ stepped
    refine ⟨known.step config hooks noted next label stepped, ?_, ?_⟩
    · obtain ⟨_moved, note⟩ := (Machine.record_step_iff _ _ _ _ _).mp stepped
      rw [← note]
      exact noteStores_dispatched config noted.1 label noted.2 instrId listed
    · obtain ⟨moved, _note⟩ := (Machine.record_step_iff _ _ _ _ _).mp stepped
      obtain ⟨_continues, ordered⟩ := (Machine.restrict_step_iff _ _ _ _ _).mp moved
      obtain ⟨steps, _history⟩ := (Machine.record_step_iff _ _ _ _ _).mp ordered
      rw [known.logged.dispatched] at listed
      cases label with
      | stage stage =>
          exact runStage_unbound config hooks noted.1.1 next.1.1 stage known.kept.inOrder listed
            waitsForNone steps
      | event event =>
          rw [(occur_sameQueues config noted.1.1 next.1.1 event steps).1]
          exact waitsForNone
  · refine ⟨recorded, ?_, unbound⟩
    rw [recorded.logged.dispatched]
    exact dispatched

/-- What becomes of a load that dispatch places: all stores that it finds are
older, and it is placed alone, completes at once, or waits for its store. -/
structure ForwardsLoad (after : O3Cpu Module × History) (schedule : MemorySchedule)
    (smem : Address) : Prop where
  older : ∀ store ∈ schedule.sq, store.instrId < schedule.instr.instrId
  places : ∃ placed, schedule.scheduleLoad smem = some placed ∧
    MemorySchedule.Places schedule smem placed
  alone : (∀ store ∈ schedule.sq, store.virtualAddress ≠ smem) →
    NeverBound config hooks after schedule.freeSlot schedule.instr.instrId
  bound : ∀ index store, Youngest smem schedule.sq index store → store.fetchIssued = false →
    WaitsForStore config hooks after schedule.freeSlot
      { schedule.newEntry smem with producerId := some store.instrId }

theorem forwardsLoad_of_placed {after : O3Cpu Module × History} {log : StoreLog}
    (recorded : Recorded config (after, log)) {schedule placed : MemorySchedule} {smem : Address}
    (older : ∀ store ∈ schedule.sq, store.instrId < schedule.instr.instrId)
    (ran : schedule.scheduleLoad smem = some placed)
    (extended : Extends placed.lq after.1.lq placed.sq after.1.sq) :
    ForwardsLoad config hooks after schedule smem := by
  obtain ⟨isFree, places⟩ := MemorySchedule.scheduleLoad_places_as ran
  have within := (List.getElem?_eq_some_iff.mp isFree).1
  refine ⟨older, ⟨placed, ran, places⟩, ?_, ?_⟩
  · intro absent
    have present : placed.lq[schedule.freeSlot]? = some (some (schedule.newEntry smem)) := by
      cases places with
      | alone _absent isPlaced =>
          rw [isPlaced]
          exact List.getElem?_set_self within
      | forwarded _index store youngest _finished _room _isPlaced =>
          exact absurd youngest.address (absent store (List.mem_of_getElem? youngest.present))
      | bound _index store youngest _pending _older _isPlaced =>
          exact absurd youngest.address (absent store (List.mem_of_getElem? youngest.present))
    have there := extended.loads _ _ present
    apply neverBound_of_unbound config hooks recorded
    · have accounts : Accounts (fun _ => 0) (accountsOf after.1.rob) after.1.lq after.1.sq :=
        recorded.kept.accounted
      obtain ⟨account, member, owner⟩ := accounts.loadsOwned _ (List.mem_of_getElem? there)
      obtain ⟨instr, inRob, isAccount⟩ := List.mem_map.mp member
      have sameId : instr.instrId = schedule.instr.instrId :=
        (congrArg Account.instrId isAccount).trans owner
      exact List.mem_append_right _ (List.mem_map.mpr ⟨instr, inRob, sameId⟩)
    · intro entry isThere _mine
      rw [there] at isThere
      cases isThere
      rfl
  · intro index store youngest pending
    have awaiting := MemorySchedule.scheduleLoad_awaiting ran youngest pending
    exact waitsForStore_of_awaiting config hooks recorded (awaiting.extend extended)

/-- In every run each load operand that dispatch places is forwarded from the
youngest older store of its address that is in the store queue, at once when
that store has finished and else in the step in which it finishes, and it is
not sent to the data cache. Without such a store it is never bound to one. -/
theorem histories_loadsForwarded (l1iBus l1dBus : Channel) (modules : Module)
    (labels : List Step) (reached : O3Cpu Module × History)
    (ran : (histories config hooks).run (O3Cpu.init config l1iBus l1dBus modules, {}) labels =
      some reached) :
    (waiting reached.1.sq).Nodup ∧
      (∀ stage next, reached.1.runStage config hooks stage = some next →
        SendsMarked reached.1 next stage) ∧
      ∀ after, (histories config hooks).step reached (.stage .dispatchInstruction) = some after →
        (∃ entered, after.1.rob = reached.1.rob ++ entered ∧
          (reached.1.dispatchPlacements config).map
            (fun placement => (placement.1.instr.instrId, placement.2)) =
              entered.flatMap OooModelInstr.loadOperands) ∧
        ∀ placement ∈ reached.1.dispatchPlacements config,
          ForwardsLoad config hooks after placement.1 placement.2 := by
  obtain ⟨log, logs⟩ := (histories config hooks).exists_recorded_run (noteStores config) labels _
    reached {} ran
  have recorded := storeLogs_recorded config hooks l1iBus l1dBus modules labels (reached, log) logs
  have accounts : Accounts (fun _ => 0) (accountsOf reached.1.rob) reached.1.lq reached.1.sq :=
    recorded.kept.accounted
  refine ⟨accounts.distinct, ?_, ?_⟩
  · intro stage next steps
    exact runStage_sendsMarked config hooks reached.1 next stage steps
  · intro after stepped
    have recordedAfter := Recorded.next config hooks recorded stepped
    obtain ⟨_continues, ordered⟩ := (Machine.restrict_step_iff _ _ _ _ _).mp stepped
    obtain ⟨dispatches, _history⟩ := (Machine.record_step_iff _ _ _ _ _).mp ordered
    have placed := dispatchInstruction_placed config reached.1 after.1 recorded.kept.inOrder
      (Recorded.owned config recorded) dispatches
    refine ⟨placed.listed, ?_⟩
    intro placement member
    obtain ⟨older, schedule, isPlaced, extended⟩ := placed.placed placement member
    exact forwardsLoad_of_placed config hooks recordedAfter older isPlaced extended

end O3Cpu

/-- Some load finds a store of its address that has not finished. -/
def findsPending (placements : List (MemorySchedule × Address)) : Bool :=
  placements.any (fun placement => placement.1.sq.any (fun store =>
    decide (store.virtualAddress = placement.2) && !store.fetchIssued))

def untilDispatch : List Step :=
  storeAndLoad ++ smallCycles 4 ++ (operate (fun _ _ => false)).take 7

private theorem untilDispatch_finds :
    ((histories smallCore quietModules).run (smallInit, {}) untilDispatch).any (fun reached =>
      findsPending (reached.1.dispatchPlacements smallCore)) = true := by
  decide +kernel

theorem histories_loadsForwarded_storeAndLoad :
    ∃ reached, (histories smallCore quietModules).run (smallInit, {}) untilDispatch =
        some reached ∧
      findsPending (reached.1.dispatchPlacements smallCore) = true ∧
      (waiting reached.1.sq).Nodup ∧
      (∀ stage next, reached.1.runStage smallCore quietModules stage = some next →
        O3Cpu.SendsMarked reached.1 next stage) ∧
      ∀ after, (histories smallCore quietModules).step reached (.stage .dispatchInstruction) =
          some after →
        (∃ entered, after.1.rob = reached.1.rob ++ entered ∧
          (reached.1.dispatchPlacements smallCore).map
            (fun placement => (placement.1.instr.instrId, placement.2)) =
              entered.flatMap OooModelInstr.loadOperands) ∧
        ∀ placement ∈ reached.1.dispatchPlacements smallCore,
          O3Cpu.ForwardsLoad smallCore quietModules after placement.1 placement.2 := by
  obtain ⟨reached, ran, finds⟩ := (Option.any_eq_true _ _).mp untilDispatch_finds
  exact ⟨reached, ran, finds, O3Cpu.histories_loadsForwarded smallCore quietModules smallBus
    smallBus () untilDispatch reached ran⟩

end ChampSim.Core

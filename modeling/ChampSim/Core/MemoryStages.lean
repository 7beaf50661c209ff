/-
The memory operations of the reorder buffer, over whole runs.

Dispatch places the operations of an instruction, stores and the data cache
finish them, and no assertion on the way can fail.
-/

import ChampSim.Core.Fresh
import ChampSim.Core.MemoryAccounts

set_option autoImplicit false

namespace ChampSim.Core

open Transition Cache

/-! ### Dispatch places the operations of an instruction -/

/-- An instruction behind the reorder buffer, some of its operations not yet placed. -/
structure Placing (rob : List OooModelInstr) (remaining : Nat) (schedule : MemorySchedule) :
    Prop where
  accounts : Accounts (remainingOf schedule.instr.instrId remaining)
    (accountsOf (rob ++ [schedule.instr])) schedule.lq schedule.sq
  older : ∀ store ∈ schedule.sq, store.fetchIssued = false →
    store.instrId < schedule.instr.instrId

namespace Placing

variable {rob : List OooModelInstr} {remaining : Nat} {schedule : MemorySchedule}

theorem owned (rob : List OooModelInstr) (instr : OooModelInstr) :
    ∃ account ∈ accountsOf (rob ++ [instr]), account.instrId = instr.instrId := by
  refine ⟨instr.account, ?_, rfl⟩
  exact List.mem_map.mpr ⟨instr, List.mem_append_right _ List.mem_cons_self, rfl⟩

theorem forward (placing : Placing rob (remaining + 1) schedule) (entry : LsqEntry)
    (same : schedule.instr.instrId = entry.instrId) :
    ∃ instr, entry.finishInstr schedule.instr = some instr ∧
      Placing rob remaining { schedule with instr } := by
  have accounts := placing.accounts
  have member : schedule.instr.account ∈ accountsOf (rob ++ [schedule.instr]) :=
    List.mem_map.mpr ⟨schedule.instr, List.mem_append_right _ List.mem_cons_self, rfl⟩
  have total := accounts.balanced schedule.instr.account member
  have mine : schedule.instr.account.instrId = schedule.instr.instrId := rfl
  unfold remainingOf at total
  rw [if_pos mine] at total
  have below : schedule.instr.completedMemOps + 1 ≤ schedule.instr.numMemOps := by
    change schedule.instr.completedMemOps + _ + _ + _ = schedule.instr.numMemOps at total
    omega
  have sorted := accounts.sorted
  unfold accountsOf at sorted
  rw [List.map_map, List.map_append, List.pairwise_append] at sorted
  have tallied : accountsOf (rob ++ [{ schedule.instr with
      completedMemOps := schedule.instr.completedMemOps + 1 }]) =
        tally schedule.instr.instrId (accountsOf (rob ++ [schedule.instr])) := by
    unfold accountsOf tally
    rw [List.map_map, List.map_append, List.map_append]
    congr 1
    · apply List.map_congr_left
      intro other among
      have less := sorted.2.2 other.instrId (List.mem_map.mpr ⟨other, among, rfl⟩)
        schedule.instr.instrId List.mem_cons_self
      exact (if_neg (Nat.ne_of_lt less)).symm
    · exact congrArg (fun account => [account]) (if_pos rfl).symm
  refine ⟨{ schedule.instr with completedMemOps := schedule.instr.completedMemOps + 1 }, ?_, ?_, ?_⟩
  · unfold LsqEntry.finishInstr
    rw [if_pos ⟨same, below⟩]
  · change Accounts (remainingOf schedule.instr.instrId remaining) _ schedule.lq schedule.sq
    rw [tallied]
    exact accounts.placeForwarded
  · exact placing.older

end Placing

/-- Every load is placed, in a free slot unless a finished store forwards to it. -/
theorem scheduleLoad_places (rob : List OooModelInstr) (remaining room : Nat)
    (schedule : MemorySchedule) (smem : Address)
    (placing : Placing rob (remaining + 1) schedule)
    (free : room + 1 ≤ schedule.lq.countP (fun entry => entry.isNone)) :
    ∃ next, schedule.scheduleLoad smem = some next ∧ Placing rob remaining next ∧
      room ≤ next.lq.countP (fun entry => entry.isNone) := by
  have within : schedule.lq.findIdx (fun entry => entry.isNone) < schedule.lq.length := by
    have positive : 0 < schedule.lq.countP (fun entry => entry.isNone) := by omega
    exact List.findIdx_lt_length.mpr (List.countP_pos_iff.mp positive)
  have isFree := List.findIdx_getElem (w := within)
  unfold MemorySchedule.scheduleLoad
  dsimp only
  rw [if_neg (Nat.not_le.mpr within)]
  revert within isFree
  generalize schedule.lq.findIdx (fun entry => entry.isNone) = slot
  intro within isFree
  have atSlot : schedule.lq[slot]? = some none :=
    List.getElem?_eq_some_iff.mpr ⟨within, Option.isNone_iff_eq_none.mp isFree⟩
  have taken : ∀ load, room ≤ (schedule.lq.set slot (some load)).countP
      (fun entry => entry.isNone) := by
    intro load
    have filled : ¬ (some load).isNone = true := Bool.false_ne_true
    rw [List.countP_set within, if_pos isFree, if_neg filled]
    omega
  have waits : Placing rob remaining { schedule with
      lq := schedule.lq.set slot (some
        { instrId := schedule.instr.instrId
          virtualAddress := smem
          ip := schedule.instr.ip
          asid := schedule.instr.asid }) } :=
    ⟨placing.accounts.placeLoad slot _ atSlot rfl rfl (Placing.owned rob schedule.instr),
      placing.older⟩
  split
  · exact ⟨_, rfl, waits, taken _⟩
  · split
    · exact ⟨_, rfl, waits, taken _⟩
    · rename_i index _chosen _found store present
      split
      · exact ⟨_, rfl, waits, taken _⟩
      · split
        · obtain ⟨instr, finishes, forwarded⟩ := placing.forward
            { instrId := schedule.instr.instrId
              virtualAddress := smem
              ip := schedule.instr.ip
              asid := schedule.instr.asid } rfl
          have unchanged : schedule.lq.set slot none = schedule.lq := by
            obtain ⟨_within, value⟩ := List.getElem?_eq_some_iff.mp atSlot
            rw [← value]
            exact List.set_getElem_self within
          rw [finishes, unchanged]
          exact ⟨_, rfl, forwarded, Nat.le_of_succ_le free⟩
        · rename_i unfinished
          have pending : store.fetchIssued = false := Bool.eq_false_iff.mpr unfinished
          have member := List.mem_of_getElem? present
          rw [if_pos (placing.older store member pending)]
          refine ⟨_, rfl, ⟨?_, ?_⟩, taken _⟩
          · have placed := placing.accounts.placeLoad slot
              { instrId := schedule.instr.instrId
                virtualAddress := smem
                ip := schedule.instr.ip
                asid := schedule.instr.asid
                producerId := some store.instrId } atSlot rfl rfl
              (Placing.owned rob schedule.instr)
            have unheld : slot ∉ waiting schedule.sq := by
              intro held
              obtain ⟨holder, among, holds⟩ := List.mem_flatMap.mp held
              obtain ⟨inQueue, isPending⟩ := List.mem_filter.mp among
              obtain ⟨load, there, _producer⟩ := placing.accounts.waits holder inQueue
                (Bool.not_eq_true' _ |>.mp isPending) slot holds
              rw [atSlot] at there
              cases there
            obtain ⟨inside, value⟩ := List.getElem?_eq_some_iff.mp present
            have split : schedule.sq = schedule.sq.take index ++ store ::
                schedule.sq.drop (index + 1) := by
              rw [← value, List.getElem_cons_drop, List.take_append_drop]
            have replaced : ∀ holder, schedule.sq.set index holder =
                schedule.sq.take index ++ holder :: schedule.sq.drop (index + 1) := by
              intro holder
              rw [List.set_eq_take_append_cons_drop, if_pos inside]
            rw [split] at placed unheld
            dsimp only
            rw [replaced]
            exact placed.holdLoad slot _ (List.getElem?_set_self within) rfl unheld pending
          · intro other among open'
            rcases List.mem_or_eq_of_mem_set among with before | holder
            · exact placing.older other before open'
            · rw [holder]
              exact placing.older store member pending

theorem scheduleLoads_place (rob : List OooModelInstr) (remaining : Nat) (loads : List Address)
    (schedule : MemorySchedule) (placing : Placing rob (remaining + loads.length) schedule)
    (free : loads.length ≤ schedule.lq.countP (fun entry => entry.isNone)) :
    ∃ next, loads.foldlM MemorySchedule.scheduleLoad schedule = some next ∧
      Placing rob remaining next := by
  induction loads generalizing schedule with
  | nil => exact ⟨schedule, rfl, placing⟩
  | cons smem rest ih =>
      obtain ⟨middle, first, placed, room⟩ :=
        scheduleLoad_places rob (remaining + rest.length) rest.length schedule smem placing free
      obtain ⟨last, others, done⟩ := ih middle placed room
      refine ⟨last, ?_, done⟩
      rw [List.foldlM_cons, first]
      exact others

theorem scheduleStores_place (rob : List OooModelInstr) (stores : List Address)
    (schedule : MemorySchedule)
    (accounts : Accounts (remainingOf schedule.instr.instrId stores.length)
      (accountsOf (rob ++ [schedule.instr])) schedule.lq schedule.sq) :
    let last := stores.foldl MemorySchedule.scheduleStore schedule
    Accounts (fun _ => 0) (accountsOf (rob ++ [last.instr])) last.lq last.sq := by
  induction stores generalizing schedule with
  | nil =>
      rw [List.length_nil, remainingOf_zero] at accounts
      exact accounts
  | cons dmem rest ih =>
      exact ih (schedule.scheduleStore dmem)
        (accounts.placeStore _ rfl rfl rfl (Placing.owned rob schedule.instr))

theorem doMemoryScheduling_places (rob : List OooModelInstr) (instr : OooModelInstr)
    (lq : List (Option LsqEntry)) (sq : List LsqEntry)
    (accounts : Accounts (fun _ => 0) (accountsOf rob) lq sq)
    (youngest : ∀ other ∈ rob, other.instrId < instr.instrId)
    (fresh : instr.completedMemOps = 0 ∧ instr.completed = false)
    (free : instr.sourceMemory.length ≤ lq.countP (fun entry => entry.isNone)) :
    ∃ next, doMemoryScheduling { instr, lq, sq } = some next ∧
      Accounts (fun _ => 0) (accountsOf (rob ++ [next.instr])) next.lq next.sq := by
  have younger : ∀ account ∈ accountsOf rob, account.instrId < instr.account.instrId := by
    intro account member
    obtain ⟨other, among, same⟩ := List.mem_map.mp member
    rw [← same]
    exact youngest other among
  have entered := accounts.enter younger fresh
  have placing : Placing rob (instr.destinationMemory.length + instr.sourceMemory.length)
      { instr, lq, sq } := by
    constructor
    · unfold accountsOf at entered ⊢
      rw [List.map_append]
      exact entered
    · intro store member pending
      obtain ⟨account, owner, same⟩ := accounts.storesOwned store member pending
      rw [← same]
      exact younger account owner
  obtain ⟨loaded, loads, placed⟩ := scheduleLoads_place rob instr.destinationMemory.length
    instr.sourceMemory { instr, lq, sq } placing free
  refine ⟨_, ?_, scheduleStores_place rob instr.destinationMemory loaded placed.accounts⟩
  unfold doMemoryScheduling
  dsimp only
  rw [loads]
  rfl

/-! ### The store queue finishes a store -/

namespace O3Cpu

variable {missing : Nat → Nat}

theorem releaseLoads_succeed (producerId : Nat) (sq : List LsqEntry) (slots : List Nat)
    (memory : List OooModelInstr × List (Option LsqEntry))
    (accounts : Accounts missing (accountsOf memory.1) memory.2 sq)
    (free : ∀ slot ∈ slots, slot ∉ waiting sq) (distinct : slots.Nodup)
    (held : ∀ slot ∈ slots, ∃ load, memory.2[slot]? = some (some load) ∧
      load.producerId = some producerId) :
    ∃ released, slots.foldlM (releaseLoad producerId) memory = some released ∧
      Accounts missing (accountsOf released.1) released.2 sq := by
  induction slots generalizing memory with
  | nil => exact ⟨memory, rfl, accounts⟩
  | cons slot rest ih =>
      obtain ⟨load, present, producer⟩ := held slot List.mem_cons_self
      obtain ⟨first, others⟩ := List.nodup_cons.mp distinct
      have member := Accounts.slot_mem present
      obtain ⟨finished, finishes, tallied⟩ := load.finish_tallies memory.1 accounts.sorted
        (accounts.load_owner member)
      have released : releaseLoad producerId memory slot =
          some (finished, memory.2.set slot none) := by
        unfold releaseLoad
        rw [present]
        change (if load.producerId = some producerId then _ else none) = _
        rw [if_pos producer, finishes]
        rfl
      have kept := accounts.finishLoad slot load present (free slot List.mem_cons_self)
      rw [← tallied] at kept
      obtain ⟨last, remaining, still⟩ := ih (finished, memory.2.set slot none) kept
        (fun other among => free other (List.mem_cons_of_mem slot among)) others (by
          intro other among
          obtain ⟨otherLoad, there, sameProducer⟩ := held other (List.mem_cons_of_mem slot among)
          refine ⟨otherLoad, ?_, sameProducer⟩
          have different : slot ≠ other := fun same => first (same ▸ among)
          rw [List.getElem?_set_ne different]
          exact there)
      refine ⟨last, ?_, still⟩
      rw [List.foldlM_cons, released]
      exact remaining

theorem doFinishStore_succeeds (front back : List LsqEntry) (store marked : LsqEntry)
    (memory : List OooModelInstr × List (Option LsqEntry))
    (accounts : Accounts missing (accountsOf memory.1) memory.2 (front ++ store :: back))
    (pending : store.fetchIssued = false) (finished : marked.fetchIssued = true)
    (earlier : ∀ entry ∈ front, entry.fetchIssued = true) :
    ∃ next, doFinishStore memory store = some next ∧
      Accounts missing (accountsOf next.1) next.2 (front ++ marked :: back) := by
  have member : store ∈ front ++ store :: back := List.mem_append_right _ List.mem_cons_self
  obtain ⟨rob, finishes, tallied⟩ := store.finish_tallies memory.1 accounts.sorted
    (accounts.store_owner member pending)
  obtain ⟨kept, free, distinct⟩ :=
    accounts.finishStore marked pending finished earlier
  rw [← tallied] at kept
  obtain ⟨released, releases, still⟩ := releaseLoads_succeed store.instrId _ store.lqDependOnMe
    (rob, memory.2) kept free distinct (accounts.waits store member pending)
  refine ⟨released, ?_, still⟩
  unfold doFinishStore
  rw [finishes]
  exact releases

theorem finishStores_succeed (mark : LsqEntry → LsqEntry)
    (marked : ∀ store, (mark store).fetchIssued = true) (front stores back : List LsqEntry)
    (memory : List OooModelInstr × List (Option LsqEntry))
    (accounts : Accounts missing (accountsOf memory.1) memory.2 (front ++ (stores ++ back)))
    (pending : ∀ store ∈ stores, store.fetchIssued = false)
    (earlier : ∀ entry ∈ front, entry.fetchIssued = true) :
    ∃ next, stores.foldlM doFinishStore memory = some next ∧
      Accounts missing (accountsOf next.1) next.2 (front ++ (stores.map mark ++ back)) := by
  induction stores generalizing front memory with
  | nil => exact ⟨memory, rfl, accounts⟩
  | cons store rest ih =>
      obtain ⟨middle, first, kept⟩ := doFinishStore_succeeds front (rest ++ back) store (mark store)
        memory accounts (pending store List.mem_cons_self) (marked store) earlier
      rw [List.append_cons] at kept
      obtain ⟨last, others, done⟩ := ih (front ++ [mark store]) middle kept
        (fun other member => pending other (List.mem_cons_of_mem store member)) (by
          intro entry member
          rcases List.mem_append.mp member with before | newest
          · exact earlier entry before
          · rw [List.mem_singleton.mp newest]
            exact marked store)
      refine ⟨last, ?_, ?_⟩
      · rw [List.foldlM_cons, first]
        exact others
      · rw [← List.append_cons] at done
        exact done

end O3Cpu

namespace O3Cpu

variable {Module : Type} (config : Config) (hooks : CoreModules Module)

def Accounted (state : O3Cpu Module) : Prop :=
  Accounts (fun _ => 0) (accountsOf state.rob) state.lq state.sq

/-! ### Stages of dispatch and of the queues -/

theorem dispatchFront_accounted {history : History} (state : O3Cpu Module)
    (instr : OooModelInstr) (rest : List OooModelInstr)
    (inOrder : InOrder config state.order history) (fresh : state.Undispatched)
    (accounted : state.Accounted) (front : state.dispatchBuffer = instr :: rest)
    (allowed : state.canDispatch config instr) :
    ∃ next, state.dispatchFront config instr rest = some next ∧ next.Accounted := by
  have waiting := fresh.dispatch
  rw [front] at waiting
  have first := waiting instr List.mem_cons_self
  obtain ⟨schedule, schedules, placed⟩ := doMemoryScheduling_places state.rob instr state.lq
    state.sq accounted (by
      intro other member
      apply inOrder.dispatch_youngest instr.instrId (ids rest)
      · change ids state.dispatchBuffer = _
        rw [front]
        rfl
      · exact List.mem_map.mpr ⟨other, member, rfl⟩) ⟨first.1.2.2.2, first.1.2.2.1⟩ allowed.2.2.1
  refine ⟨_, congrArg (Option.map _) schedules, ?_⟩
  unfold Accounted accountsOf at *
  dsimp only
  rw [List.map_append] at placed ⊢
  exact placed

theorem dispatchLoop_accounted {history : History} (bandwidth : Nat) (state : O3Cpu Module)
    (inOrder : InOrder config state.order history) (fresh : state.Undispatched)
    (accounted : state.Accounted) :
    ∃ next, dispatchLoop config bandwidth state = some next ∧ next.Accounted := by
  induction bandwidth generalizing state with
  | zero => exact ⟨state, rfl, accounted⟩
  | succ bandwidth ih =>
      unfold dispatchLoop
      split
      · exact ⟨state, rfl, accounted⟩
      · rename_i instr rest front
        split
        · rename_i allowed
          obtain ⟨middle, first, kept⟩ := dispatchFront_accounted config state instr rest inOrder
            fresh accounted front allowed
          rw [first]
          exact ih middle
            (dispatchFront_inOrder config state middle instr rest inOrder front allowed first)
            (dispatchFront_undispatched config state middle instr rest fresh front first) kept
        · exact ⟨state, rfl, accounted⟩

/-- The stores that leave are at the front, and each of them is complete. -/
theorem completeStores_suffix (complete : LsqEntry → Bool) (bandwidth : Nat) (bus : Channel)
    (sq : List LsqEntry) : ∃ gone, gone ++ (completeStores config complete bandwidth bus sq).1 = sq ∧
      ∀ store ∈ gone, complete store = true := by
  have nothing : ∀ stores : List LsqEntry, ∃ gone, gone ++ stores = stores ∧
      ∀ store ∈ gone, complete store = true :=
    fun stores => ⟨[], rfl, fun store member => by cases member⟩
  fun_induction completeStores config complete bandwidth bus sq with
  | case1 => exact nothing _
  | case2 => exact nothing _
  | case3 bus bandwidth entry rest isComplete issued sent ih =>
      obtain ⟨gone, split, all⟩ := ih
      refine ⟨entry :: gone, congrArg (List.cons entry) split, ?_⟩
      intro store member
      rcases List.mem_cons.mp member with isEntry | later
      · rw [isEntry]
        exact isComplete
      · exact all store later
  | case4 => exact nothing _
  | case5 => exact nothing _

theorem retired_finished {lq : List (Option LsqEntry)} {sq : List LsqEntry}
    {missing : Nat → Nat} (rob : List OooModelInstr) (accounts : List Account)
    (same : accounts.map (fun account => account.instrId) = ids rob)
    (accounted : Accounts missing accounts lq sq) (store : LsqEntry) (member : store ∈ sq)
    (retired : isRetired rob store = true) : store.fetchIssued = true := by
  cases issued : store.fetchIssued with
  | true => rfl
  | false =>
      obtain ⟨account, owner, id⟩ := accounted.storesOwned store member issued
      have listed : store.instrId ∈ ids rob := by
        rw [← same]
        exact List.mem_map.mpr ⟨account, owner, id⟩
      have sorted := accounted.sorted
      rw [same] at sorted
      cases rob with
      | nil => cases listed
      | cons front rest =>
          have less : store.instrId < front.instrId := of_decide_eq_true retired
          rcases List.mem_cons.mp listed with isFront | later
          · exact absurd isFront (Nat.ne_of_lt less)
          · have after : front.instrId < store.instrId :=
              (List.pairwise_cons.mp sorted).1 store.instrId later
            omega

theorem issueLoads_succeed {missing : Nat → Nat} {rob : List Account} {sq : List LsqEntry}
    (time : Nat) (loads : Nat × Channel) (lq : List (Option LsqEntry))
    (accounts : Accounts missing rob lq sq) :
    ∃ result, Queue.sweep (issueLoad config time) loads lq = some result ∧
      Accounts missing rob result.1 sq := by
  obtain ⟨result, swept, same, issued⟩ := Queue.sweep_succeeds (issueLoad config time)
    (fun changed _ => holdings changed = holdings lq ∧
      ∀ load, some load ∈ changed → load.fetchIssued = true → load.producerId = none)
    (by
      intro front entry rest reached kept
      have replaced : ∀ load changed : LsqEntry, entry = some load →
          (changed.instrId, changed.producerId) = (load.instrId, load.producerId) →
            (changed.fetchIssued = true → changed.producerId = none) →
              holdings (front ++ some changed :: rest) = holdings lq ∧
                ∀ other, some other ∈ front ++ some changed :: rest →
                  other.fetchIssued = true → other.producerId = none := by
        intro load changed isLoad same mine
        subst isLoad
        constructor
        · rw [← kept.1]
          unfold holdings
          rw [List.map_append, List.map_cons, List.map_append, List.map_cons, Option.map_some,
            Option.map_some, same]
        · intro other member
          rcases List.mem_append.mp member with inFront | later
          · exact kept.2 other (List.mem_append_left _ inFront)
          · rcases List.mem_cons.mp later with isChanged | inRest
            · rw [Option.some.inj isChanged]
              exact mine
            · exact kept.2 other (List.mem_append_right _ (List.mem_cons_of_mem _ inRest))
      unfold issueLoad
      split
      · exact ⟨none, reached, rfl, kept⟩
      · rename_i load
        have mine := kept.2 load (List.mem_append_right _ List.mem_cons_self)
        split
        · rename_i ready
          split
          · rename_i issued _sent
            exact ⟨_, _, rfl, replaced load { load with fetchIssued := true } rfl rfl
              (fun _ => ready.2.1)⟩
          · exact ⟨_, _, rfl, kept⟩
        · exact ⟨_, _, rfl, kept⟩)
    [] lq loads ⟨rfl, accounts.issued⟩
  exact ⟨result, swept, accounts.changeLoads result.1 same issued⟩

theorem finishing_split (state : O3Cpu Module) :
    state.sq.takeWhile (fun entry => entry.fetchIssued) ++
      (state.finishing config ++ (state.sq.dropWhile (fun entry => entry.fetchIssued)).drop
        (state.finishing config).length) = state.sq := by
  have spans := Queue.span_append_beyond config.sqWidth (isFinishable state.currentTime)
    (state.sq.dropWhile (fun entry => entry.fetchIssued))
  unfold finishing
  unfold Queue.beyond at spans
  rw [spans, List.takeWhile_append_dropWhile]

theorem operateLsq_accounted (state : O3Cpu Module) (accounted : state.Accounted) :
    ∃ next, state.operateLsq config = some next ∧ next.Accounted := by
  have accounts : Accounts (fun _ => 0) (accountsOf state.rob) state.lq state.sq := accounted
  rw [← finishing_split config state] at accounts
  obtain ⟨memory, finishes, kept⟩ := finishStores_succeed
    (fun entry => { entry with fetchIssued := true, readyTime := some state.currentTime })
    (fun _ => rfl) _ (state.finishing config) _ (state.rob, state.lq) accounts (by
      intro store member
      have ready := Queue.span_holds _ _ _ store member
      exact Bool.not_eq_true' _ |>.mp (Bool.and_eq_true_iff.mp ready).1)
    (fun entry member => List.mem_takeWhile_imp member)
  have same : (accountsOf memory.1).map (fun account => account.instrId) = ids state.rob := by
    rw [← ids_withoutOps (finishStores_withoutOps _ _ _ finishes)]
    unfold accountsOf
    rw [List.map_map]
    rfl
  obtain ⟨gone, leaves, complete⟩ := completeStores_suffix config
    (fun entry => isRetired state.rob entry &&
      entry.readyTime.any (fun ready => decide (ready ≤ state.currentTime)))
    (config.sqWidth - (state.finishing config).length) state.l1dBus
    (state.sq.takeWhile (fun entry => entry.fetchIssued) ++
      (state.finishing config).map
        (fun entry => { entry with fetchIssued := true, readyTime := some state.currentTime }) ++
      (state.sq.dropWhile (fun entry => entry.fetchIssued)).drop (state.finishing config).length)
  rw [← List.append_assoc] at kept
  have remaining := kept
  rw [← leaves] at remaining
  have left := remaining.dropFinished (by
    intro store member
    apply retired_finished state.rob (accountsOf memory.1) same remaining store
      (List.mem_append_left _ member)
    exact (Bool.and_eq_true_iff.mp (complete store member)).1)
  generalize completes : completeStores config _ _ _ _ = completed at left
  obtain ⟨loaded, issues, done⟩ := issueLoads_succeed config state.currentTime
    (config.lqWidth, completed.2) memory.2 left
  refine ⟨{ state with
    rob := memory.1
    lq := loaded.1
    sq := completed.1
    l1dBus := loaded.2.2 }, ?_, done⟩
  unfold operateLsq
  dsimp only
  rw [finishes, Option.bind_some, completes, issues, Option.map_some]

theorem finishLoads_succeed {missing : Nat → Nat} {sq : List LsqEntry}
    (memory : List OooModelInstr × List (Option LsqEntry)) (response : Response)
    (accounts : Accounts missing (accountsOf memory.1) memory.2 sq) :
    ∃ next, finishLoads config memory response = some next ∧
      Accounts missing (accountsOf next.1) next.2 sq := by
  obtain ⟨result, swept, kept⟩ := Queue.sweep_succeeds (finishLoad config response.vAddress)
    (fun lq rob => Accounts missing (accountsOf rob) lq sq)
    (by
      intro front entry rest rob kept
      unfold finishLoad
      split
      · exact ⟨none, rob, rfl, kept⟩
      · rename_i load
        split
        · rename_i returned
          have present : (front ++ some load :: rest)[front.length]? = some (some load) := by
            rw [List.getElem?_append_right (Nat.le_refl _), Nat.sub_self,
              List.getElem?_cons_zero]
          have member := Accounts.slot_mem present
          have free : front.length ∉ waiting sq := by
            intro held
            obtain ⟨store, among, holds⟩ := List.mem_flatMap.mp held
            obtain ⟨inQueue, pending⟩ := List.mem_filter.mp among
            obtain ⟨other, there, producer⟩ := kept.waits store inQueue
              (Bool.not_eq_true' _ |>.mp pending) front.length holds
            rw [present] at there
            cases there
            rw [kept.issued load member returned.1] at producer
            cases producer
          obtain ⟨finished, finishes, tallied⟩ := load.finish_tallies rob kept.sorted
            (kept.load_owner member)
          have done := kept.finishLoad front.length load present free
          rw [← tallied, List.set_append_right _ _ (Nat.le_refl _), Nat.sub_self,
            List.set_cons_zero] at done
          exact ⟨none, finished, by rw [finishes]; rfl, done⟩
        · exact ⟨some load, rob, rfl, kept⟩)
    [] memory.2 memory.1 accounts
  refine ⟨(result.2, result.1), ?_, kept⟩
  unfold finishLoads
  rw [swept]
  rfl

theorem handleMemoryReturn_accounted (state : O3Cpu Module) (accounted : state.Accounted) :
    ∃ next, state.handleMemoryReturn config = some next ∧ next.Accounted := by
  obtain ⟨memory, finishes, done⟩ := Queue.foldlM_succeeds (finishLoads config)
    (fun memory => Accounts (fun _ => 0) (accountsOf memory.1) memory.2 state.sq)
    (state.l1dBus.returned.take config.l1dBandwidth)
    (fun memory response _member kept => finishLoads_succeed config memory response kept)
    (state.rob, state.lq) accounted
  exact ⟨_, congrArg (Option.map _) finishes, done⟩

/-! ### Stages that leave the queues alone -/

theorem retireRob_accounted (state next : O3Cpu Module) (accounted : state.Accounted)
    (ran : state.retireRob config = some next) : next.Accounted := by
  obtain ⟨alloc, _retired, same⟩ := Option.map_eq_some_iff.mp ran
  subst same
  have split : state.retiring config ++ state.rob.drop (state.retiring config).length =
      state.rob := Queue.span_append_beyond config.retireWidth _ state.rob
  unfold Accounted accountsOf at *
  dsimp only
  rw [← split, List.map_append] at accounted
  apply accounted.retire
  intro account member
  obtain ⟨instr, among, same⟩ := List.mem_map.mp member
  rw [← same]
  exact Queue.span_holds _ _ state.rob instr among

theorem completeInflightInstruction_accounted (state next : O3Cpu Module)
    (accounted : state.Accounted) (ran : state.completeInflightInstruction config = some next) :
    next.Accounted := by
  obtain ⟨⟨rob, completing⟩, swept, same⟩ := Option.map_eq_some_iff.mp ran
  subst same
  apply Queue.sweep_invariant _
    (fun visited _ => Accounts (fun _ => 0) (accountsOf visited) state.lq state.sq) ?_ [] state.rob
    _ (rob, completing) accounted swept
  intro front instr rest reached visited after kept step
  unfold completeVisit at step
  split at step
  · rename_i ready
    obtain ⟨alloc, _completes, same⟩ := Option.map_eq_some_iff.mp step
    cases same
    unfold accountsOf at kept ⊢
    rw [List.map_append, List.map_cons] at kept ⊢
    exact kept.complete ready.2.2.2.2
  · cases step
    exact kept

theorem executeInstruction_accounted (state next : O3Cpu Module) (accounted : state.Accounted)
    (ran : state.executeInstruction config = some next) : next.Accounted := by
  obtain ⟨⟨rob, executing⟩, swept, same⟩ := Option.map_eq_some_iff.mp ran
  subst same
  apply Queue.sweep_invariant _
    (fun visited (reached : Executing) =>
      Accounts (fun _ => 0) (accountsOf visited) reached.lq reached.sq) ?_ [] state.rob
    { bandwidth := config.execWidth, lq := state.lq, sq := state.sq } (rob, executing) accounted
    swept
  intro front instr rest reached visited after kept step
  unfold executeVisit at step
  split at step
  · obtain ⟨ready, _valid, same⟩ := Option.map_eq_some_iff.mp step
    split at same
    · cases same
      have marked : Accounts (fun _ => 0) (accountsOf (front ++ instr :: rest))
          (reached.lq.map (Option.map (markReady instr.instrId
            (state.currentTime + state.latency config.execLatency))))
          (reached.sq.map (markReady instr.instrId
            (state.currentTime + state.latency config.execLatency))) := by
        have keeps : ∀ entry : LsqEntry, ∃ readyTime, markReady instr.instrId
            (state.currentTime + state.latency config.execLatency) entry =
              { entry with readyTime } := by
          intro entry
          unfold markReady
          split
          · exact ⟨_, rfl⟩
          · exact ⟨entry.readyTime, rfl⟩
        apply (kept.changeLoads _ ?_ ?_).changeStores _ ?_
        · unfold holdings
          rw [List.map_map]
          apply List.map_congr_left
          intro entry _member
          cases entry with
          | none => rfl
          | some load =>
              obtain ⟨time, marks⟩ := keeps load
              change some ((markReady _ _ load).instrId, (markReady _ _ load).producerId) = _
              rw [marks]
              rfl
        · intro load member issued
          obtain ⟨entry, among, isLoad⟩ := List.mem_map.mp member
          obtain ⟨older, isEntry, marks⟩ := Option.map_eq_some_iff.mp isLoad
          subst isEntry
          obtain ⟨time, shape⟩ := keeps older
          rw [← marks, shape] at issued ⊢
          exact kept.issued older among issued
        · unfold pledges
          rw [List.map_map]
          apply List.map_congr_left
          intro store _member
          obtain ⟨time, marks⟩ := keeps store
          change ((markReady _ _ store).instrId, (markReady _ _ store).fetchIssued,
            (markReady _ _ store).lqDependOnMe) = _
          rw [marks]
      unfold accountsOf at marked ⊢
      rw [List.map_append, List.map_cons] at marked ⊢
      exact marked
    · cases same
      exact kept
  · cases step
    exact kept

theorem doScheduling_account (alloc last : RegisterAllocator) (instr scheduled : OooModelInstr)
    (ran : doScheduling alloc instr = some (scheduled, last)) :
    scheduled.account = instr.account := by
  obtain ⟨⟨sources, renamed⟩, _first, others⟩ := Option.bind_eq_some_iff.mp ran
  obtain ⟨⟨destinations, allocated⟩, _second, same⟩ := Option.map_eq_some_iff.mp others
  cases same
  rfl

theorem scheduleInstruction_accounted (beyond : RegisterAllocator → Nat → Bool)
    (state next : O3Cpu Module) (accounted : state.Accounted)
    (ran : state.scheduleInstruction config beyond = some next) : next.Accounted := by
  obtain ⟨⟨rob, search⟩, swept, same⟩ := Option.map_eq_some_iff.mp ran
  subst same
  apply Queue.sweep_invariant _
    (fun visited _ => Accounts (fun _ => 0) (accountsOf visited) state.lq state.sq) ?_ [] state.rob
    _ (rob, search) accounted swept
  intro front instr rest reached visited after kept step
  have same : visited.account = instr.account := by
    unfold scheduleVisit at step
    split at step
    · cases step
      rfl
    · split at step
      · cases step
        rfl
      · obtain ⟨⟨scheduled, alloc⟩, schedules, same⟩ := Option.map_eq_some_iff.mp step
        cases same
        split at schedules
        · exact doScheduling_account _ _ instr _ schedules
        · cases schedules
          rfl
  unfold accountsOf at kept ⊢
  rw [List.map_append, List.map_cons] at kept ⊢
  rw [same]
  exact kept

/-! ### Runs -/

theorem runStage_accounted {history : History} (state next : O3Cpu Module) (stage : Stage)
    (inOrder : InOrder config state.order history) (fresh : state.Undispatched)
    (accounted : state.Accounted) (ran : state.runStage config hooks stage = some next) :
    next.Accounted := by
  have front : stage.isFrontEnd = true → next.Accounted := by
    intro isFront
    obtain ⟨_, _, _, _, _, _, _, _, same⟩ :=
      frontEnd_shape config hooks state next stage isFront ran
    rw [same]
    exact accounted
  cases stage with
  | retireRob => exact retireRob_accounted config state next accounted ran
  | completeInflightInstruction =>
      exact completeInflightInstruction_accounted config state next accounted ran
  | executeInstruction => exact executeInstruction_accounted config state next accounted ran
  | scheduleInstruction beyond =>
      exact scheduleInstruction_accounted config beyond state next accounted ran
  | handleMemoryReturn =>
      obtain ⟨reached, returns, kept⟩ := handleMemoryReturn_accounted config state accounted
      cases returns.symm.trans ran
      exact kept
  | operateLsq =>
      obtain ⟨reached, operates, kept⟩ := operateLsq_accounted config state accounted
      cases operates.symm.trans ran
      exact kept
  | dispatchInstruction =>
      obtain ⟨reached, dispatches, kept⟩ := dispatchLoop_accounted config config.dispatchWidth
        state inOrder fresh accounted
      cases dispatches.symm.trans ran
      exact kept
  | decodeInstruction => exact front rfl
  | promoteToDecode => exact front rfl
  | fetchInstruction => exact front rfl
  | checkDib => exact front rfl
  | initializeInstruction => exact front rfl

theorem occur_accounted (state next : O3Cpu Module) (event : Event) (accounted : state.Accounted)
    (ran : state.occur config event = some next) : next.Accounted := by
  obtain ⟨_, _, _, _, _, same, _traced⟩ := occur_shape config state next event ran
  rw [same]
  exact accounted

theorem init_accounted (l1iBus l1dBus : Channel) (modules : Module) :
    (O3Cpu.init config l1iBus l1dBus modules).Accounted := by
  have empty : ∀ load, some load ∉ List.replicate config.lqSize (none : Option LsqEntry) := by
    intro load member
    cases List.eq_of_mem_replicate member
  refine ⟨List.Pairwise.nil, ?_, ?_, ?_, ?_, ?_, List.nodup_nil, ?_, List.Pairwise.nil⟩
  · intro account member
    cases member
  · intro account member
    cases member
  · intro load member
    exact absurd member (empty load)
  · intro store member
    cases member
  · intro store member
    cases member
  · intro load member
    exact absurd member (empty load)

/-- What a run keeps of the memory operations and of what they rest on. -/
structure Kept (noted : O3Cpu Module × History) : Prop where
  inOrder : InOrder config noted.1.order noted.2
  undispatched : noted.1.Undispatched
  accounted : noted.1.Accounted

theorem Kept.step (noted next : O3Cpu Module × History) (label : Step) (kept : Kept config noted)
    (stepped : (histories config hooks).step noted label = some next) : Kept config next := by
  obtain ⟨continues, recorded⟩ := (Machine.restrict_step_iff _ _ _ _ _).mp stepped
  obtain ⟨moved, history⟩ := (Machine.record_step_iff _ _ _ _ _).mp recorded
  constructor
  · rw [← history]
    cases label with
    | stage stage => exact runStage_inOrder config hooks noted.1 next.1 stage kept.inOrder moved
    | event event =>
        exact occur_inOrder config noted.1 next.1 event kept.inOrder continues moved
  · cases label with
    | stage stage =>
        exact runStage_undispatched config hooks noted.1 next.1 stage kept.inOrder
          kept.undispatched moved
    | event event => exact occur_undispatched config noted.1 next.1 event kept.undispatched moved
  · cases label with
    | stage stage =>
        exact runStage_accounted config hooks noted.1 next.1 stage kept.inOrder kept.undispatched
          kept.accounted moved
    | event event => exact occur_accounted config noted.1 next.1 event kept.accounted moved

theorem init_kept (l1iBus l1dBus : Channel) (modules : Module) :
    Kept config (O3Cpu.init config l1iBus l1dBus modules, {}) :=
  ⟨init_inOrder config l1iBus l1dBus modules, init_undispatched config l1iBus l1dBus modules,
    init_accounted config l1iBus l1dBus modules⟩

theorem histories_kept (l1iBus l1dBus : Channel) (modules : Module) (labels : List Step)
    (reached : O3Cpu Module × History)
    (ran : (histories config hooks).run (O3Cpu.init config l1iBus l1dBus modules, {}) labels =
      some reached) : Kept config reached :=
  (histories config hooks).run_invariant (Kept config)
    (fun noted label next kept stepped => kept.step config hooks noted next label stepped) labels _
    reached (init_kept config l1iBus l1dBus modules) ran

/-- In every run the operations of each instruction in the reorder buffer are
those that are complete, its loads and its stores that have not finished, every
such entry has its instruction there, and no assertion can fail. -/
theorem histories_memoryAccounted (l1iBus l1dBus : Channel) (modules : Module)
    (labels : List Step) (reached : O3Cpu Module × History)
    (ran : (histories config hooks).run (O3Cpu.init config l1iBus l1dBus modules, {}) labels =
      some reached) :
    ((∀ instr ∈ reached.1.rob, instr.completedMemOps + loadsOf reached.1.lq instr.instrId +
        storesOf reached.1.sq instr.instrId = instr.numMemOps) ∧
      (∀ load, some load ∈ reached.1.lq →
        ∃ instr ∈ reached.1.rob, instr.instrId = load.instrId) ∧
      ∀ store ∈ reached.1.sq, store.fetchIssued = false →
        ∃ instr ∈ reached.1.rob, instr.instrId = store.instrId) ∧
      (reached.1.dispatchInstruction config).isSome = true ∧
        (reached.1.operateLsq config).isSome = true ∧
          (reached.1.handleMemoryReturn config).isSome = true := by
  have kept := histories_kept config hooks l1iBus l1dBus modules labels reached ran
  have accounts : Accounts (fun _ => 0) (accountsOf reached.1.rob) reached.1.lq reached.1.sq :=
    kept.accounted
  have owner : ∀ instrId, (∃ account ∈ accountsOf reached.1.rob, account.instrId = instrId) →
      ∃ instr ∈ reached.1.rob, instr.instrId = instrId := by
    rintro instrId ⟨account, member, same⟩
    obtain ⟨instr, among, isAccount⟩ := List.mem_map.mp member
    exact ⟨instr, among, (congrArg Account.instrId isAccount).trans same⟩
  refine ⟨⟨?_, ?_, ?_⟩, ?_, ?_, ?_⟩
  · intro instr member
    exact accounts.balanced instr.account (List.mem_map.mpr ⟨instr, member, rfl⟩)
  · intro load member
    exact owner load.instrId (accounts.loadsOwned load member)
  · intro store member pending
    exact owner store.instrId (accounts.storesOwned store member pending)
  · obtain ⟨next, dispatches, _after⟩ := dispatchLoop_accounted config config.dispatchWidth
      reached.1 kept.inOrder kept.undispatched kept.accounted
    exact Option.isSome_iff_exists.mpr ⟨next, dispatches⟩
  · obtain ⟨next, operates, _after⟩ := operateLsq_accounted config reached.1 kept.accounted
    exact Option.isSome_iff_exists.mpr ⟨next, operates⟩
  · obtain ⟨next, returns, _after⟩ := handleMemoryReturn_accounted config reached.1 kept.accounted
    exact Option.isSome_iff_exists.mpr ⟨next, returns⟩

end O3Cpu

private theorem storeAndLoad_dispatches :
    ((histories smallCore quietModules).run (smallInit, {})
      (storeAndLoad ++ smallCycles 7)).any (fun reached =>
        decide (0 < reached.1.rob.length)) = true := by
  decide +kernel

theorem histories_memoryAccounted_storeAndLoad :
    ∃ reached, (histories smallCore quietModules).run (smallInit, {})
        (storeAndLoad ++ smallCycles 7) = some reached ∧ 0 < reached.1.rob.length ∧
      ((∀ instr ∈ reached.1.rob, instr.completedMemOps + loadsOf reached.1.lq instr.instrId +
          storesOf reached.1.sq instr.instrId = instr.numMemOps) ∧
        (∀ load, some load ∈ reached.1.lq →
          ∃ instr ∈ reached.1.rob, instr.instrId = load.instrId) ∧
        ∀ store ∈ reached.1.sq, store.fetchIssued = false →
          ∃ instr ∈ reached.1.rob, instr.instrId = store.instrId) ∧
        (reached.1.dispatchInstruction smallCore).isSome = true ∧
          (reached.1.operateLsq smallCore).isSome = true ∧
            (reached.1.handleMemoryReturn smallCore).isSome = true := by
  obtain ⟨reached, ran, dispatched⟩ := (Option.any_eq_true _ _).mp storeAndLoad_dispatches
  exact ⟨reached, ran, of_decide_eq_true dispatched, O3Cpu.histories_memoryAccounted smallCore
    quietModules smallBus smallBus () _ reached ran⟩

end ChampSim.Core

/-
What the stages do to the load queue and the store queue.

A load is placed in one of three ways: without a store of its address, behind
the youngest such store, or at once when that store has finished. Only
dispatch, execution, the memory returns and `operate_lsq` touch the queues.
-/

import ChampSim.Cache.Returns
import ChampSim.Core.MemoryStages

set_option autoImplicit false

namespace ChampSim.Core

open Transition Cache

/-! ### Placing a load -/

/-- The store that a load of the address is bound to: the first of the
youngest among those of that address. -/
structure Youngest (smem : Address) (sq : List LsqEntry) (index : Nat) (store : LsqEntry) :
    Prop where
  present : sq[index]? = some store
  address : store.virtualAddress = smem
  youngest : ∀ other ∈ sq, other.virtualAddress = smem → other.instrId ≤ store.instrId
  first : ∀ earlier other, earlier < index → sq[earlier]? = some other →
    other.virtualAddress = smem → other.instrId < store.instrId

theorem Youngest.unique {smem : Address} {sq : List LsqEntry} {index other : Nat}
    {store chosen : LsqEntry} (youngest : Youngest smem sq index store)
    (found : Youngest smem sq other chosen) : index = other ∧ store = chosen := by
  have same : index = other := by
    rcases Nat.lt_trichotomy index other with before | same | before
    · have less := found.first index store before youngest.present youngest.address
      have most := youngest.youngest chosen (List.mem_of_getElem? found.present) found.address
      omega
    · exact same
    · have less := youngest.first other chosen before found.present found.address
      have most := found.youngest store (List.mem_of_getElem? youngest.present) youngest.address
      omega
  have present := found.present
  rw [← same, youngest.present] at present
  exact ⟨same, Option.some.inj present⟩

namespace MemorySchedule

def newEntry (schedule : MemorySchedule) (smem : Address) : LsqEntry where
  instrId := schedule.instr.instrId
  virtualAddress := smem
  ip := schedule.instr.ip
  asid := schedule.instr.asid

def freeSlot (schedule : MemorySchedule) : Nat :=
  schedule.lq.findIdx (fun entry => entry.isNone)

inductive Places (schedule : MemorySchedule) (smem : Address) (next : MemorySchedule) : Prop
  | alone (absent : ∀ store ∈ schedule.sq, store.virtualAddress ≠ smem)
      (placed : next = { schedule with
        lq := schedule.lq.set schedule.freeSlot (some (schedule.newEntry smem)) })
  | forwarded (index : Nat) (store : LsqEntry) (youngest : Youngest smem schedule.sq index store)
      (finished : store.fetchIssued = true)
      (room : schedule.instr.completedMemOps + 1 ≤ schedule.instr.numMemOps)
      (placed : next = { schedule with
        instr := { schedule.instr with
          completedMemOps := schedule.instr.completedMemOps + 1 } })
  | bound (index : Nat) (store : LsqEntry) (youngest : Youngest smem schedule.sq index store)
      (pending : store.fetchIssued = false) (older : store.instrId < schedule.instr.instrId)
      (placed : next = { schedule with
        lq := schedule.lq.set schedule.freeSlot
          (some { schedule.newEntry smem with producerId := some store.instrId })
        sq := schedule.sq.set index
          { store with lqDependOnMe := store.lqDependOnMe ++ [schedule.freeSlot] } })

theorem forwardsLess_eq (smem : Address) :
    forwardsLess smem = Queue.preferLess (fun entry => decide (entry.virtualAddress = smem))
      (fun entry => entry.instrId) := by
  funext lhs rhs
  unfold forwardsLess Queue.preferLess
  rw [← decide_not]

theorem maxElement_youngest {smem : Address} {sq : List LsqEntry} {index : Nat} {store : LsqEntry}
    (found : Queue.maxElement (forwardsLess smem) sq = some index)
    (present : sq[index]? = some store) :
    (store.virtualAddress = smem → Youngest smem sq index store) ∧
      (store.virtualAddress ≠ smem → ∀ other ∈ sq, other.virtualAddress ≠ smem) := by
  rw [forwardsLess_eq] at found
  obtain ⟨best, preferred⟩ := Queue.maxElement_preferred _ _ _ _ found
  have isStore : best = store := Option.some.inj (preferred.present.symm.trans present)
  rw [isStore] at preferred
  constructor
  · intro address
    refine ⟨present, address, ?_, ?_⟩
    · intro other member same
      exact preferred.largest other member (decide_eq_true same)
    · intro earlier other before there same
      exact preferred.first earlier other before there (decide_eq_true same)
  · intro differs other member
    exact of_decide_eq_false (preferred.absent (decide_eq_false differs) other member)

theorem scheduleLoad_places_as {schedule next : MemorySchedule} {smem : Address}
    (ran : schedule.scheduleLoad smem = some next) :
    schedule.lq[schedule.freeSlot]? = some none ∧ Places schedule smem next := by
  unfold scheduleLoad at ran
  dsimp only at ran
  split at ran
  · cases ran
  · rename_i room
    have within : schedule.freeSlot < schedule.lq.length := Nat.not_le.mp room
    have free : schedule.lq[schedule.freeSlot]? = some none := by
      have isFree := List.findIdx_getElem (w := within)
      exact List.getElem?_eq_some_iff.mpr ⟨within, Option.isNone_iff_eq_none.mp isFree⟩
    refine ⟨free, ?_⟩
    split at ran
    · rename_i nothing
      have empty : schedule.sq = [] := by
        cases stores : schedule.sq with
        | nil => rfl
        | cons store rest =>
            rw [stores] at nothing
            cases nothing
      cases ran
      apply Places.alone ?_ rfl
      intro store member
      rw [empty] at member
      cases member
    · rename_i index found
      split at ran
      · rename_i outside
        rw [forwardsLess_eq] at found
        obtain ⟨best, preferred⟩ := Queue.maxElement_preferred _ _ _ _ found
        rw [preferred.present] at outside
        cases outside
      · rename_i store present
        obtain ⟨youngest, absent⟩ := maxElement_youngest found present
        split at ran
        · rename_i differs
          cases ran
          exact Places.alone (absent differs) rfl
        · rename_i same
          have address : store.virtualAddress = smem := not_not.mp same
          split at ran
          · rename_i finished
            obtain ⟨instr, finishes, isNext⟩ := Option.map_eq_some_iff.mp ran
            have unchanged : schedule.lq.set schedule.freeSlot none = schedule.lq := by
              obtain ⟨inside, value⟩ := List.getElem?_eq_some_iff.mp free
              rw [← value]
              exact List.set_getElem_self inside
            unfold LsqEntry.finishInstr at finishes
            split at finishes
            · rename_i allowed
              cases finishes
              apply Places.forwarded index store (youngest address) finished allowed.2
              unfold freeSlot at unchanged
              rw [← isNext, unchanged]
            · cases finishes
          · rename_i unfinished
            split at ran
            · rename_i older
              cases ran
              exact Places.bound index store (youngest address) (Bool.eq_false_iff.mpr unfinished)
                older rfl
            · cases ran

theorem scheduleStores_queue (stores : List Address) (schedule : MemorySchedule) :
    stores.foldl scheduleStore schedule =
      { schedule with sq := schedule.sq ++ stores.map schedule.newEntry } := by
  induction stores generalizing schedule with
  | nil =>
      rw [List.map_nil, List.append_nil]
      rfl
  | cons dmem rest ih =>
      have placed : schedule.scheduleStore dmem =
          { schedule with sq := schedule.sq ++ [schedule.newEntry dmem] } := rfl
      rw [List.foldl_cons, ih, placed]
      dsimp only
      rw [List.append_assoc, List.singleton_append, List.map_cons]
      rfl

end MemorySchedule

/-! ### Stages -/

def LsqEntry.untimed (entry : LsqEntry) : LsqEntry := { entry with readyTime := none }

namespace O3Cpu

variable {Module : Type} (config : Config) (hooks : CoreModules Module)

theorem markReady_untimed (instrId time : Nat) (entry : LsqEntry) :
    (markReady instrId time entry).untimed = entry.untimed := by
  unfold markReady
  split
  · rfl
  · rfl

theorem executeInstruction_queues (state next : O3Cpu Module)
    (ran : state.executeInstruction config = some next) :
    next.lq.map (Option.map LsqEntry.untimed) = state.lq.map (Option.map LsqEntry.untimed) ∧
      next.sq.map LsqEntry.untimed = state.sq.map LsqEntry.untimed := by
  obtain ⟨⟨rob, executing⟩, swept, same⟩ := Option.map_eq_some_iff.mp ran
  subst same
  apply Queue.sweep_invariant _ (fun _ (reached : Executing) =>
    reached.lq.map (Option.map LsqEntry.untimed) = state.lq.map (Option.map LsqEntry.untimed) ∧
      reached.sq.map LsqEntry.untimed = state.sq.map LsqEntry.untimed) ?_ [] state.rob
    { bandwidth := config.execWidth, lq := state.lq, sq := state.sq } (rob, executing) ⟨rfl, rfl⟩
    swept
  intro front instr rest reached visited after kept step
  unfold executeVisit at step
  split at step
  · obtain ⟨ready, _valid, same⟩ := Option.map_eq_some_iff.mp step
    split at same
    · cases same
      have looks : LsqEntry.untimed ∘ markReady instr.instrId
          (state.currentTime + state.latency config.execLatency) = LsqEntry.untimed :=
        funext (markReady_untimed instr.instrId _)
      dsimp only
      rw [List.map_map, List.map_map, Option.map_comp_map, looks]
      exact kept
    · cases same
      exact kept
  · cases step
    exact kept

/-- Both queues and the bus of the data cache are left alone. -/
structure SameMemory (state next : O3Cpu Module) : Prop where
  lq : next.lq = state.lq
  sq : next.sq = state.sq
  l1dBus : next.l1dBus = state.l1dBus

theorem retireRob_sameMemory {state next : O3Cpu Module}
    (ran : state.retireRob config = some next) : SameMemory state next := by
  obtain ⟨alloc, _retired, same⟩ := Option.map_eq_some_iff.mp ran
  subst same
  exact ⟨rfl, rfl, rfl⟩

def LeavesMemory : Stage → Prop
  | .executeInstruction => False
  | .handleMemoryReturn => False
  | .operateLsq => False
  | .dispatchInstruction => False
  | _ => True

theorem leavesMemory_or (stage : Stage) :
    LeavesMemory stage ∨ stage = .executeInstruction ∨ stage = .handleMemoryReturn ∨
      stage = .operateLsq ∨ stage = .dispatchInstruction := by
  cases stage with
  | executeInstruction => exact Or.inr (Or.inl rfl)
  | handleMemoryReturn => exact Or.inr (Or.inr (Or.inl rfl))
  | operateLsq => exact Or.inr (Or.inr (Or.inr (Or.inl rfl)))
  | dispatchInstruction => exact Or.inr (Or.inr (Or.inr (Or.inr rfl)))
  | _ => exact Or.inl trivial

theorem runStage_sameMemory (state next : O3Cpu Module) (stage : Stage)
    (leaves : LeavesMemory stage) (ran : state.runStage config hooks stage = some next) :
    SameMemory state next := by
  have front : stage.isFrontEnd = true → SameMemory state next := by
    intro isFront
    obtain ⟨_, _, _, _, _, _, _, _, same⟩ :=
      frontEnd_shape config hooks state next stage isFront ran
    rw [same]
    exact ⟨rfl, rfl, rfl⟩
  cases stage with
  | retireRob => exact retireRob_sameMemory config ran
  | completeInflightInstruction =>
      obtain ⟨completing, _swept, same⟩ := Option.map_eq_some_iff.mp ran
      subst same
      exact ⟨rfl, rfl, rfl⟩
  | executeInstruction => cases leaves
  | scheduleInstruction beyond =>
      obtain ⟨search, _swept, same⟩ := Option.map_eq_some_iff.mp ran
      subst same
      exact ⟨rfl, rfl, rfl⟩
  | handleMemoryReturn => cases leaves
  | operateLsq => cases leaves
  | dispatchInstruction => cases leaves
  | decodeInstruction => exact front rfl
  | promoteToDecode => exact front rfl
  | fetchInstruction => exact front rfl
  | checkDib => exact front rfl
  | initializeInstruction => exact front rfl

theorem occur_sameQueues (state next : O3Cpu Module) (event : Event)
    (ran : state.occur config event = some next) :
    next.lq = state.lq ∧ next.sq = state.sq ∧ next.rob = state.rob := by
  obtain ⟨_, _, _, _, _, same, _traced⟩ := occur_shape config state next event ran
  rw [same]
  exact ⟨rfl, rfl, rfl⟩

/-! ### The loads and stores of a cycle -/

/-- The store queue once the stores of this cycle have finished. -/
def finishedQueue (state : O3Cpu Module) : List LsqEntry :=
  state.sq.takeWhile (fun entry => entry.fetchIssued) ++
    (state.finishing config).map
      (fun entry => { entry with fetchIssued := true, readyTime := some state.currentTime }) ++
    (state.sq.dropWhile (fun entry => entry.fetchIssued)).drop (state.finishing config).length

def isComplete (state : O3Cpu Module) (entry : LsqEntry) : Bool :=
  isRetired state.rob entry &&
    entry.readyTime.any (fun ready => decide (ready ≤ state.currentTime))

/-- The parts of `operate_lsq`: stores finish, stores are written, loads are sent. -/
theorem operateLsq_parts (state next : O3Cpu Module) (ran : state.operateLsq config = some next) :
    ∃ memory completed loaded,
      (state.finishing config).foldlM doFinishStore (state.rob, state.lq) = some memory ∧
      completeStores config state.isComplete (config.sqWidth - (state.finishing config).length)
        state.l1dBus (state.finishedQueue config) = completed ∧
      Queue.sweep (issueLoad config state.currentTime) (config.lqWidth, completed.2) memory.2 =
        some loaded ∧
      next = { state with
        rob := memory.1
        lq := loaded.1
        sq := completed.1
        l1dBus := loaded.2.2 } := by
  obtain ⟨memory, finished, others⟩ := Option.bind_eq_some_iff.mp ran
  obtain ⟨loaded, issued, same⟩ := Option.map_eq_some_iff.mp others
  exact ⟨memory, _, loaded, finished, rfl, issued, same.symm⟩

end O3Cpu

end ChampSim.Core

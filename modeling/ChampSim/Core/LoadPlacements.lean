/-
The loads that dispatch places.

Each load finds the queues as the loads before it left them. A slot that is
taken stays taken until the end of the stage, and a store keeps what it holds.
-/

import ChampSim.Core.StoreWrites

set_option autoImplicit false

namespace ChampSim.Core

open Transition Cache

/-! ### Queues that grow -/

/-- The loads stay in their slots, and the stores stay and release what they
released before. -/
structure Extends (lq later : List (Option LsqEntry)) (sq grown : List LsqEntry) : Prop where
  loads : ∀ (slot : Nat) (load : LsqEntry), lq[slot]? = some (some load) →
    later[slot]? = some (some load)
  stores : ∀ store ∈ sq, ∃ dependents : List Nat, store.lqDependOnMe ⊆ dependents ∧
    { store with lqDependOnMe := dependents } ∈ grown

namespace Extends

variable {lq middle later : List (Option LsqEntry)} {sq between grown : List LsqEntry}

theorem refl (lq : List (Option LsqEntry)) (sq : List LsqEntry) : Extends lq lq sq sq :=
  ⟨fun _slot _load present => present,
    fun store member => ⟨store.lqDependOnMe, List.Subset.refl _, member⟩⟩

theorem trans (first : Extends lq middle sq between) (second : Extends middle later between grown) :
    Extends lq later sq grown := by
  constructor
  · intro slot load present
    exact second.loads slot load (first.loads slot load present)
  · intro store member
    obtain ⟨dependents, more, among⟩ := first.stores store member
    obtain ⟨others, stillMore, kept⟩ := second.stores _ among
    exact ⟨others, List.Subset.trans more stillMore, kept⟩

theorem fill {free : Nat} (isFree : lq[free]? = some none) (load : LsqEntry) :
    ∀ (slot : Nat) (other : LsqEntry), lq[slot]? = some (some other) →
      (lq.set free (some load))[slot]? = some (some other) := by
  intro slot other present
  have different : free ≠ slot := by
    intro same
    rw [same, present] at isFree
    cases isFree
  rw [List.getElem?_set_ne different]
  exact present

theorem append (lq : List (Option LsqEntry)) (sq others : List LsqEntry) :
    Extends lq lq sq (sq ++ others) :=
  ⟨fun _slot _load present => present,
    fun store member =>
      ⟨store.lqDependOnMe, List.Subset.refl _, List.mem_append_left others member⟩⟩

end Extends

/-! ### The loads of an instruction -/

def OooModelInstr.loadOperands (instr : OooModelInstr) : List (Nat × Address) :=
  instr.sourceMemory.map (fun smem => (instr.instrId, smem))

namespace MemorySchedule

theorem scheduleLoad_extends {schedule next : MemorySchedule} {smem : Address}
    (ran : schedule.scheduleLoad smem = some next) :
    Extends schedule.lq next.lq schedule.sq next.sq := by
  obtain ⟨isFree, places⟩ := scheduleLoad_places_as ran
  cases places with
  | alone _absent placed =>
      rw [placed]
      exact ⟨Extends.fill isFree _, (Extends.refl schedule.lq schedule.sq).stores⟩
  | forwarded index store _youngest _finished _room placed =>
      rw [placed]
      exact Extends.refl schedule.lq schedule.sq
  | bound index store youngest _pending _older placed =>
      rw [placed]
      refine ⟨Extends.fill isFree _, ?_⟩
      intro other member
      dsimp only
      obtain ⟨position, atPosition⟩ := List.mem_iff_getElem?.mp member
      by_cases here : index = position
      · have isStore : store = other := by
          rw [← here, youngest.present] at atPosition
          exact Option.some.inj atPosition
        have within := (List.getElem?_eq_some_iff.mp youngest.present).1
        refine ⟨store.lqDependOnMe ++ [schedule.freeSlot], ?_, ?_⟩
        · rw [← isStore]
          exact List.subset_append_left _ _
        · rw [← isStore]
          exact List.mem_of_getElem? (List.getElem?_set_self within)
      · refine ⟨other.lqDependOnMe, List.Subset.refl _, ?_⟩
        have kept : (schedule.sq.set index { store with
            lqDependOnMe := store.lqDependOnMe ++ [schedule.freeSlot] })[position]? = some other := by
          rw [List.getElem?_set_ne here]
          exact atPosition
        exact List.mem_of_getElem? kept

theorem scheduleLoad_instrId {schedule next : MemorySchedule} {smem : Address}
    (ran : schedule.scheduleLoad smem = some next) :
    next.instr.instrId = schedule.instr.instrId := by
  have kept := congrArg OooModelInstr.instrId (scheduleLoad_withoutOps schedule next smem ran)
  exact kept

theorem scheduleLoad_entries {schedule next : MemorySchedule} {smem : Address}
    (ran : schedule.scheduleLoad smem = some next) (slot : Nat) (entry : LsqEntry)
    (present : next.lq[slot]? = some (some entry)) :
    schedule.lq[slot]? = some (some entry) ∨ entry.instrId = schedule.instr.instrId := by
  obtain ⟨isFree, places⟩ := scheduleLoad_places_as ran
  have filled : ∀ load : LsqEntry, load.instrId = schedule.instr.instrId →
      (schedule.lq.set schedule.freeSlot (some load))[slot]? = some (some entry) →
        schedule.lq[slot]? = some (some entry) ∨ entry.instrId = schedule.instr.instrId := by
    intro load mine there
    by_cases here : schedule.freeSlot = slot
    · rw [← here, List.getElem?_set_self (List.getElem?_eq_some_iff.mp isFree).1,
        Option.some.injEq, Option.some.injEq] at there
      rw [← there]
      exact Or.inr mine
    · rw [List.getElem?_set_ne here] at there
      exact Or.inl there
  cases places with
  | alone _absent placed =>
      rw [placed] at present
      exact filled _ rfl present
  | forwarded _index _store _youngest _finished _room placed =>
      rw [placed] at present
      exact Or.inl present
  | bound _index _store _youngest _pending _older placed =>
      rw [placed] at present
      exact filled _ rfl present

def placements : MemorySchedule → List Address → List (MemorySchedule × Address)
  | _, [] => []
  | schedule, smem :: rest =>
      (schedule, smem) :: (schedule.scheduleLoad smem).elim [] (fun next => next.placements rest)

theorem placements_operands (loads : List Address) (schedule last : MemorySchedule)
    (ran : loads.foldlM scheduleLoad schedule = some last) :
    (schedule.placements loads).map (fun placement => (placement.1.instr.instrId, placement.2)) =
      loads.map (fun smem => (schedule.instr.instrId, smem)) := by
  induction loads generalizing schedule with
  | nil => rfl
  | cons smem rest ih =>
      obtain ⟨next, placed, others⟩ := Option.bind_eq_some_iff.mp ran
      have same := scheduleLoad_instrId placed
      unfold placements
      rw [placed, Option.elim_some, List.map_cons, ih next others, same]
      rfl

/-- Each load of an instruction is placed, and what follows extends the queues. -/
theorem placements_placed (loads : List Address) (schedule last : MemorySchedule)
    (ran : loads.foldlM scheduleLoad schedule = some last) :
    Extends schedule.lq last.lq schedule.sq last.sq ∧
      ∀ placement ∈ schedule.placements loads,
        placement.1.instr.instrId = schedule.instr.instrId ∧
          sqOperands placement.1.sq = sqOperands schedule.sq ∧
            ∃ placed, placement.1.scheduleLoad placement.2 = some placed ∧
              Extends placed.lq last.lq placed.sq last.sq := by
  induction loads generalizing schedule with
  | nil =>
      cases ran
      refine ⟨Extends.refl _ _, ?_⟩
      intro placement member
      cases member
  | cons smem rest ih =>
      obtain ⟨next, placed, others⟩ := Option.bind_eq_some_iff.mp ran
      obtain ⟨extended, placedLater⟩ := ih next others
      have sameId := scheduleLoad_instrId placed
      refine ⟨(scheduleLoad_extends placed).trans extended, ?_⟩
      intro placement member
      unfold placements at member
      rw [placed, Option.elim_some] at member
      rcases List.mem_cons.mp member with isFirst | later
      · rw [isFirst]
        exact ⟨rfl, rfl, next, placed, extended⟩
      · obtain ⟨id, stores, isPlaced⟩ := placedLater placement later
        exact ⟨id.trans sameId, stores.trans (O3Cpu.scheduleLoad_operands placed), isPlaced⟩

end MemorySchedule

namespace O3Cpu

variable {Module : Type} (config : Config)

/-! ### The loads of a dispatch -/

/-- The loads of the instruction in front, each with what it finds. -/
def frontPlacements (state : O3Cpu Module) (instr : OooModelInstr) :
    List (MemorySchedule × Address) :=
  MemorySchedule.placements { instr, lq := state.lq, sq := state.sq } instr.sourceMemory

/-- The loads that dispatch places with a bandwidth, each with what it finds. -/
def placementsWithin : Nat → O3Cpu Module → List (MemorySchedule × Address)
  | 0, _ => []
  | bandwidth + 1, state =>
      match state.dispatchBuffer with
      | [] => []
      | instr :: rest =>
          if state.canDispatch config instr then
            state.frontPlacements instr ++
              (state.dispatchFront config instr rest).elim [] (placementsWithin bandwidth)
          else []

def dispatchPlacements (state : O3Cpu Module) : List (MemorySchedule × Address) :=
  placementsWithin config config.dispatchWidth state

/-- What a dispatch needs of the order and of the stores. -/
structure DispatchReady (state : O3Cpu Module) (history : History) : Prop where
  inOrder : InOrder config state.order history
  owned : ∀ operand ∈ sqOperands state.sq, operand.1 ∈ history.retired ++ ids state.rob

theorem dispatchFront_placed (state next : O3Cpu Module) (instr : OooModelInstr)
    (rest : List OooModelInstr) (ran : state.dispatchFront config instr rest = some next) :
    Extends state.lq next.lq state.sq next.sq ∧
      (state.frontPlacements instr).map
        (fun placement => (placement.1.instr.instrId, placement.2)) = instr.loadOperands ∧
      ∀ placement ∈ state.frontPlacements instr,
        placement.1.instr.instrId = instr.instrId ∧
          sqOperands placement.1.sq = sqOperands state.sq ∧
            ∃ placed, placement.1.scheduleLoad placement.2 = some placed ∧
              Extends placed.lq next.lq placed.sq next.sq := by
  obtain ⟨schedule, scheduled, same⟩ := Option.map_eq_some_iff.mp ran
  obtain ⟨loaded, loads, stored⟩ := Option.map_eq_some_iff.mp scheduled
  rw [MemorySchedule.scheduleStores_queue] at stored
  have grows : Extends loaded.lq next.lq loaded.sq next.sq := by
    rw [← same, ← stored]
    exact Extends.append loaded.lq loaded.sq _
  obtain ⟨extended, placed⟩ := MemorySchedule.placements_placed instr.sourceMemory _ loaded loads
  refine ⟨extended.trans grows, MemorySchedule.placements_operands _ _ _ loads, ?_⟩
  intro placement member
  obtain ⟨id, stores, after, isPlaced, later⟩ := placed placement member
  exact ⟨id, stores, after, isPlaced, later.trans grows⟩

theorem dispatchFront_entries (state next : O3Cpu Module) (instr : OooModelInstr)
    (rest : List OooModelInstr) (ran : state.dispatchFront config instr rest = some next)
    (slot : Nat) (entry : LsqEntry) (present : next.lq[slot]? = some (some entry)) :
    state.lq[slot]? = some (some entry) ∨ entry.instrId = instr.instrId := by
  obtain ⟨schedule, scheduled, same⟩ := Option.map_eq_some_iff.mp ran
  obtain ⟨loaded, loads, stored⟩ := Option.map_eq_some_iff.mp scheduled
  rw [MemorySchedule.scheduleStores_queue] at stored
  have known := Queue.foldlM_invariant MemorySchedule.scheduleLoad
    (fun reached => reached.instr.instrId = instr.instrId ∧
      ∀ other, reached.lq[slot]? = some (some other) →
        state.lq[slot]? = some (some other) ∨ other.instrId = instr.instrId) _ (by
      intro reached smem _member later kept step
      refine ⟨(MemorySchedule.scheduleLoad_instrId step).trans kept.1, ?_⟩
      intro other there
      rcases MemorySchedule.scheduleLoad_entries step slot other there with older | mine
      · exact kept.2 other older
      · exact Or.inr (mine.trans kept.1))
    { instr, lq := state.lq, sq := state.sq } loaded
    ⟨rfl, fun _other there => Or.inl there⟩ loads
  apply known.2 entry
  rw [← same, ← stored] at present
  exact present

theorem dispatchFront_enters (state next : O3Cpu Module) (instr : OooModelInstr)
    (rest : List OooModelInstr) (ran : state.dispatchFront config instr rest = some next) :
    ∃ entered, next.rob = state.rob ++ [entered] ∧ entered.loadOperands = instr.loadOperands := by
  obtain ⟨schedule, scheduled, same⟩ := Option.map_eq_some_iff.mp ran
  have kept := doMemoryScheduling_withoutOps _ schedule scheduled
  refine ⟨_, by rw [← same], ?_⟩
  have looks := congrArg OooModelInstr.loadOperands kept
  exact looks

/-- The stores of an instruction are the only new ones when it is dispatched. -/
theorem DispatchReady.front {history : History} {state next : O3Cpu Module} {instr : OooModelInstr}
    {rest : List OooModelInstr} (dispatches : DispatchReady config state history)
    (front : state.dispatchBuffer = instr :: rest) (allowed : state.canDispatch config instr)
    (ran : state.dispatchFront config instr rest = some next) : DispatchReady config next history := by
  refine ⟨dispatchFront_inOrder config state next instr rest dispatches.inOrder front allowed ran,
    ?_⟩
  obtain ⟨entered, rob, stores⟩ := dispatchFront_stores config state next instr rest ran
  have grown : ids next.rob = ids state.rob ++ [entered.instrId] := by
    rw [rob]
    exact List.map_append
  intro operand member
  rw [grown, ← List.append_assoc]
  rw [stores] at member
  rcases List.mem_append.mp member with older | newest
  · exact List.mem_append_left _ (dispatches.owned operand older)
  · obtain ⟨dmem, _isOperand, same⟩ := List.mem_map.mp newest
    rw [← same]
    exact List.mem_append_right _ List.mem_cons_self

/-- An instruction that is dispatched is younger than every store that waits. -/
theorem DispatchReady.older {history : History} {state : O3Cpu Module} {instr : OooModelInstr}
    {rest : List OooModelInstr} (dispatches : DispatchReady config state history)
    (front : state.dispatchBuffer = instr :: rest) :
    ∀ operand ∈ sqOperands state.sq, operand.1 < instr.instrId := by
  intro operand member
  apply InOrder.dispatched_lt dispatches.inOrder (dispatches.owned operand member)
  rw [front]
  exact List.mem_cons_self

/-- Every load of a dispatch is placed behind older stores only, and the end of
the stage extends the queues that it leaves. -/
structure Placed (state next : O3Cpu Module) (placements : List (MemorySchedule × Address)) :
    Prop where
  extended : Extends state.lq next.lq state.sq next.sq
  listed : ∃ entered, next.rob = state.rob ++ entered ∧
    placements.map (fun placement => (placement.1.instr.instrId, placement.2)) =
      entered.flatMap OooModelInstr.loadOperands
  placed : ∀ placement ∈ placements,
    (∀ store ∈ placement.1.sq, store.instrId < placement.1.instr.instrId) ∧
      ∃ after, placement.1.scheduleLoad placement.2 = some after ∧
        Extends after.lq next.lq after.sq next.sq

theorem Placed.nothing (state : O3Cpu Module) : Placed state state [] := by
  refine ⟨Extends.refl _ _, ⟨[], (List.append_nil _).symm, rfl⟩, ?_⟩
  intro placement member
  cases member

theorem dispatchLoop_placed {history : History} (bandwidth : Nat) (state next : O3Cpu Module)
    (dispatches : DispatchReady config state history)
    (ran : dispatchLoop config bandwidth state = some next) :
    Placed state next (placementsWithin config bandwidth state) := by
  induction bandwidth generalizing state with
  | zero =>
      cases ran
      exact Placed.nothing _
  | succ bandwidth ih =>
      unfold dispatchLoop at ran
      unfold placementsWithin
      cases buffer : state.dispatchBuffer with
      | nil =>
          rw [buffer] at ran
          cases ran
          exact Placed.nothing _
      | cons instr rest =>
          rw [buffer] at ran
          dsimp only at ran ⊢
          by_cases allowed : state.canDispatch config instr
          · rw [if_pos allowed] at ran ⊢
            obtain ⟨middle, first, remaining⟩ := Option.bind_eq_some_iff.mp ran
            obtain ⟨extended, listed, placed⟩ := dispatchFront_placed config state middle instr rest
              first
            obtain ⟨later, ⟨others, robLater, listedLater⟩, placedLater⟩ :=
              ih middle (dispatches.front config buffer allowed first) remaining
            obtain ⟨newest, rob, looks⟩ := dispatchFront_enters config state middle instr rest first
            rw [first, Option.elim_some]
            refine ⟨extended.trans later, ⟨newest :: others, ?_, ?_⟩, ?_⟩
            · rw [robLater, rob, List.append_assoc, List.singleton_append]
            · rw [List.map_append, listed, listedLater, List.flatMap_cons, looks]
            · intro placement member
              rcases List.mem_append.mp member with inFront | inLater
              · obtain ⟨id, stores, after, isPlaced, grows⟩ := placed placement inFront
                refine ⟨?_, after, isPlaced, grows.trans later⟩
                intro store among
                rw [id]
                apply dispatches.older config buffer store.operand
                rw [← stores]
                exact List.mem_map_of_mem among
              · exact placedLater placement inLater
          · rw [if_neg allowed] at ran ⊢
            cases ran
            exact Placed.nothing _

/-- A dispatch fills slots with loads of the instructions that it dispatches. -/
theorem dispatchLoop_entries (bandwidth : Nat) (state next : O3Cpu Module)
    (ran : dispatchLoop config bandwidth state = some next) (slot : Nat) (entry : LsqEntry)
    (present : next.lq[slot]? = some (some entry)) :
    state.lq[slot]? = some (some entry) ∨ entry.instrId ∈ ids state.dispatchBuffer := by
  induction bandwidth generalizing state with
  | zero =>
      cases ran
      exact Or.inl present
  | succ bandwidth ih =>
      unfold dispatchLoop at ran
      split at ran
      · cases ran
        exact Or.inl present
      · rename_i instr rest buffer
        split at ran
        · obtain ⟨middle, first, remaining⟩ := Option.bind_eq_some_iff.mp ran
          have left : middle.dispatchBuffer = rest := by
            obtain ⟨schedule, _scheduled, same⟩ := Option.map_eq_some_iff.mp first
            rw [← same]
          have listed : ids state.dispatchBuffer = instr.instrId :: ids rest := by
            rw [buffer]
            rfl
          rw [listed]
          rcases ih middle remaining with older | isLater
          · rcases dispatchFront_entries config state middle instr rest first slot entry older with
              before | same
            · exact Or.inl before
            · rw [same]
              exact Or.inr List.mem_cons_self
          · rw [left] at isLater
            exact Or.inr (List.mem_cons_of_mem _ isLater)
        · cases ran
          exact Or.inl present

end O3Cpu

end ChampSim.Core

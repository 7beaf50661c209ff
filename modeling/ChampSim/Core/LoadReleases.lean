/-
The slots of the load queue that a stage empties.

A finishing store empties the slots it holds, and a returned block those of the
loads that were sent. Every other load stays in its slot, bound to the same
store or to none, and only `operate_lsq` sends it.
-/

import ChampSim.Core.LoadPlacements
import Mathlib.Data.List.ReduceOption

set_option autoImplicit false

namespace ChampSim.Core

open Transition Cache

/-! ### Slots -/

/-- What is left of a load queue once some of its slots are empty. -/
structure Cleared (slots : List Nat) (lq later : List (Option LsqEntry)) : Prop where
  length : later.length = lq.length
  slots : ∀ slot : Nat, later[slot]? = if slot ∈ slots then some none else lq[slot]?

namespace Cleared

variable {first second : List Nat} {lq middle later : List (Option LsqEntry)}

theorem refl (lq : List (Option LsqEntry)) : Cleared [] lq lq :=
  ⟨rfl, fun _slot => (if_neg List.not_mem_nil).symm⟩

theorem append (cleared : Cleared first lq middle) (others : Cleared second middle later) :
    Cleared (first ++ second) lq later := by
  refine ⟨others.length.trans cleared.length, ?_⟩
  intro slot
  rw [others.slots slot, cleared.slots slot]
  by_cases inSecond : slot ∈ second
  · rw [if_pos inSecond, if_pos (List.mem_append_right first inSecond)]
  · rw [if_neg inSecond]
    by_cases inFirst : slot ∈ first
    · rw [if_pos inFirst, if_pos (List.mem_append_left second inFirst)]
    · have inNeither : slot ∉ first ++ second := by
        intro member
        rcases List.mem_append.mp member with among | among
        · exact inFirst among
        · exact inSecond among
      rw [if_neg inFirst, if_neg inNeither]

theorem set {slot : Nat} (within : slot < lq.length) : Cleared [slot] lq (lq.set slot none) := by
  refine ⟨List.length_set, ?_⟩
  intro other
  by_cases here : other = slot
  · rw [here, if_pos List.mem_cons_self, List.getElem?_set_self within]
  · have outside : other ∉ [slot] := fun member => here (List.mem_singleton.mp member)
    rw [if_neg outside, List.getElem?_set_ne (fun same => here same.symm)]

end Cleared

/-- Every load was there before, of the same instruction and bound to the same store. -/
def Keeps (lq later : List (Option LsqEntry)) : Prop :=
  ∀ (slot : Nat) (after : LsqEntry), later[slot]? = some (some after) →
    ∃ before, lq[slot]? = some (some before) ∧ before.instrId = after.instrId ∧
      before.producerId = after.producerId

theorem Keeps.refl (lq : List (Option LsqEntry)) : Keeps lq lq :=
  fun _slot after present => ⟨after, present, rfl, rfl⟩

theorem Keeps.trans {lq middle later : List (Option LsqEntry)} (first : Keeps lq middle)
    (second : Keeps middle later) : Keeps lq later := by
  intro slot after present
  obtain ⟨between, there, id, producer⟩ := second slot after present
  obtain ⟨before, first', sameId, sameProducer⟩ := first slot between there
  exact ⟨before, first', sameId.trans id, sameProducer.trans producer⟩

theorem Cleared.keeps {slots : List Nat} {lq later : List (Option LsqEntry)}
    (cleared : Cleared slots lq later) : Keeps lq later := by
  intro slot after present
  rw [cleared.slots slot] at present
  split at present
  · cases present
  · exact ⟨after, present, rfl, rfl⟩

theorem Keeps.untimed {lq later : List (Option LsqEntry)}
    (same : later.map (Option.map LsqEntry.untimed) = lq.map (Option.map LsqEntry.untimed)) :
    Keeps lq later := by
  intro slot after present
  have look := congrArg (fun entries => entries[slot]?) same
  rw [List.getElem?_map, List.getElem?_map, present] at look
  obtain ⟨entry, there, isUntimed⟩ := Option.map_eq_some_iff.mp look.symm
  obtain ⟨before, isEntry, untimed⟩ := Option.map_eq_some_iff.mp isUntimed
  subst isEntry
  have id := congrArg LsqEntry.instrId untimed
  have producer := congrArg LsqEntry.producerId untimed
  exact ⟨before, there, id, producer⟩

theorem Keeps.loadsOf_le {lq later : List (Option LsqEntry)} (keeps : Keeps lq later)
    (instrId : Nat) : loadsOf later instrId ≤ loadsOf lq instrId := by
  induction later generalizing lq with
  | nil => exact Nat.zero_le _
  | cons entry rest ih =>
      unfold loadsOf at ih ⊢
      cases lq with
      | nil =>
          have empty : (entry :: rest).countP (isLoadOf instrId) = 0 := by
            apply List.countP_eq_zero.mpr
            intro other member mine
            obtain ⟨load, isLoad, _same⟩ := (Option.any_eq_true _ _).mp mine
            obtain ⟨slot, present⟩ := List.mem_iff_getElem?.mp member
            rw [isLoad] at present
            obtain ⟨before, there, _kept⟩ := keeps slot load present
            cases there
          rw [empty]
          exact Nat.zero_le _
      | cons older others =>
          have later : rest.countP (isLoadOf instrId) ≤ others.countP (isLoadOf instrId) :=
            ih (fun slot after present => keeps (slot + 1) after present)
          rw [List.countP_cons, List.countP_cons]
          by_cases mine : isLoadOf instrId entry = true
          · obtain ⟨load, isLoad, same⟩ := (Option.any_eq_true _ _).mp mine
            subst isLoad
            obtain ⟨before, there, id, _producer⟩ := keeps 0 load rfl
            rw [List.getElem?_cons_zero, Option.some.injEq] at there
            have same' : isLoadOf instrId older = true := by
              rw [there]
              exact decide_eq_true (id.trans (of_decide_eq_true same))
            rw [if_pos mine, if_pos same']
            omega
          · rw [if_neg mine]
            omega

theorem Keeps.loadsOf_lt {lq later : List (Option LsqEntry)} (keeps : Keeps lq later) {slot : Nat}
    {load : LsqEntry} (present : lq[slot]? = some (some load)) (left : later[slot]? = some none) :
    loadsOf later load.instrId < loadsOf lq load.instrId := by
  have within := (List.getElem?_eq_some_iff.mp left).1
  have back : Keeps lq (later.set slot (some load)) := by
    intro other after there
    by_cases here : slot = other
    · rw [← here, List.getElem?_set_self within, Option.some.injEq, Option.some.injEq] at there
      rw [← here, ← there]
      exact ⟨load, present, rfl, rfl⟩
    · rw [List.getElem?_set_ne here] at there
      exact keeps other after there
  have unset : (later.set slot (some load)).set slot none = later := by
    obtain ⟨inside, value⟩ := List.getElem?_eq_some_iff.mp left
    rw [List.set_set, ← value, List.set_getElem_self]
  have counted := loadsOf_set_none (later.set slot (some load)) slot load
    (List.getElem?_set_self within) load.instrId
  have fewer := back.loadsOf_le load.instrId
  rw [unset, if_pos rfl] at counted
  omega

namespace O3Cpu

variable {Module : Type} (config : Config)

/-! ### Returned blocks -/

/-- A returned block empties slots of loads that were sent, and no others. -/
theorem finishLoads_slots (memory next : List OooModelInstr × List (Option LsqEntry))
    (response : Response) (ran : finishLoads config memory response = some next) :
    Keeps memory.2 next.2 ∧ ∀ (slot : Nat) (load : LsqEntry),
      memory.2[slot]? = some (some load) → load.fetchIssued = false →
        next.2[slot]? = some (some load) := by
  obtain ⟨⟨lq, rob⟩, swept, same⟩ := Option.map_eq_some_iff.mp ran
  subst same
  constructor
  · intro slot after present
    have within := (List.getElem?_eq_some_iff.mp present).1
    rw [Queue.sweep_length _ _ _ _ swept] at within
    obtain ⟨reached, last, visits⟩ := Queue.sweep_visits _ _ _ _ swept slot _ _
      (List.getElem?_eq_getElem within) present
    rw [List.getElem?_eq_getElem within]
    revert visits
    generalize memory.2[slot] = entry
    intro visits
    cases entry with
    | none => cases visits
    | some load =>
        unfold finishLoad at visits
        dsimp only at visits
        split at visits
        · obtain ⟨finished, _finishes, gone⟩ := Option.map_eq_some_iff.mp visits
          cases gone
        · cases visits
          exact ⟨_, rfl, rfl, rfl⟩
  · intro slot load present unsent
    obtain ⟨reached, visited, last, visits, there⟩ := Queue.sweep_at _ _ _ _ swept slot _ present
    unfold finishLoad at visits
    dsimp only at visits
    rw [if_neg (fun both => by rw [unsent] at both; cases both.1)] at visits
    cases visits
    exact there

theorem handleMemoryReturn_slots (state next : O3Cpu Module)
    (ran : state.handleMemoryReturn config = some next) :
    Keeps state.lq next.lq ∧ ∀ (slot : Nat) (load : LsqEntry),
      state.lq[slot]? = some (some load) → load.fetchIssued = false →
        next.lq[slot]? = some (some load) := by
  obtain ⟨memory, finished, same⟩ := Option.map_eq_some_iff.mp ran
  subst same
  apply Queue.foldlM_invariant (finishLoads config) (fun reached =>
    Keeps state.lq reached.2 ∧ ∀ (slot : Nat) (load : LsqEntry),
      state.lq[slot]? = some (some load) → load.fetchIssued = false →
        reached.2[slot]? = some (some load)) _ ?_ (state.rob, state.lq) memory
    ⟨Keeps.refl _, fun _slot _load present _unsent => present⟩ finished
  intro reached response _member later kept step
  obtain ⟨keeps, stays⟩ := finishLoads_slots config reached later response step
  exact ⟨kept.1.trans keeps,
    fun slot load present unsent => stays slot load (kept.2 slot load present unsent) unsent⟩

/-! ### Finished stores -/

def released (state : O3Cpu Module) : List Nat :=
  (state.finishing config).flatMap (fun store => store.lqDependOnMe)

theorem releaseLoads_cleared (producerId : Nat) (slots : List Nat)
    (memory last : List OooModelInstr × List (Option LsqEntry))
    (ran : slots.foldlM (releaseLoad producerId) memory = some last) :
    Cleared slots memory.2 last.2 := by
  induction slots generalizing memory with
  | nil =>
      cases ran
      exact Cleared.refl _
  | cons slot rest ih =>
      obtain ⟨next, first, others⟩ := Option.bind_eq_some_iff.mp ran
      obtain ⟨dependent, held, finishes⟩ := Option.bind_eq_some_iff.mp first
      split at finishes
      · obtain ⟨rob, _finished, same⟩ := Option.map_eq_some_iff.mp finishes
        subst same
        have within := (List.getElem?_eq_some_iff.mp (Option.join_eq_some_iff.mp held)).1
        exact (Cleared.set within).append (ih _ others)
      · cases finishes

theorem finishStores_cleared (stores : List LsqEntry)
    (memory last : List OooModelInstr × List (Option LsqEntry))
    (ran : stores.foldlM doFinishStore memory = some last) :
    Cleared (stores.flatMap (fun store => store.lqDependOnMe)) memory.2 last.2 := by
  induction stores generalizing memory with
  | nil =>
      cases ran
      exact Cleared.refl _
  | cons store rest ih =>
      obtain ⟨next, first, others⟩ := Option.bind_eq_some_iff.mp ran
      obtain ⟨rob, _finished, releases⟩ := Option.bind_eq_some_iff.mp first
      rw [List.flatMap_cons]
      exact (releaseLoads_cleared store.instrId store.lqDependOnMe _ next releases).append
        (ih next others)

/-! ### Sent loads -/

def sentLoad (before after : Option LsqEntry) : Option (Nat × Address) :=
  match before, after with
  | some load, some sent =>
      if load.fetchIssued = false ∧ sent.fetchIssued = true then some load.operand else none
  | _, _ => none

theorem sentLoad_same (entry : Option LsqEntry) : sentLoad entry entry = none := by
  cases entry with
  | none => rfl
  | some load =>
      apply if_neg
      rintro ⟨unsent, sent⟩
      rw [unsent] at sent
      cases sent

theorem issueLoad_cases (time : Nat) (loads next : Nat × Channel) (entry visited : Option LsqEntry)
    (ran : issueLoad config time loads entry = some (visited, next)) :
    (visited = entry ∧ next.2 = loads.2) ∨
      ∃ load, entry = some load ∧ load.producerId = none ∧ load.fetchIssued = false ∧
        visited = some { load with fetchIssued := true } ∧
          issueRead config loads.2 (storePacket load) = some next.2 := by
  unfold issueLoad at ran
  split at ran
  · cases ran
    exact Or.inl ⟨rfl, rfl⟩
  · rename_i load
    split at ran
    · rename_i ready
      split at ran
      · rename_i issued sent
        cases ran
        exact Or.inr ⟨load, rfl, ready.2.1, ready.2.2.1, rfl, sent⟩
      · cases ran
        exact Or.inl ⟨rfl, rfl⟩
    · cases ran
      exact Or.inl ⟨rfl, rfl⟩

theorem issueRead_appends {bus issued : Channel} {packet : Request}
    (sent : issueRead config bus packet = some issued) :
    ∃ read : Request, issued = { bus with rq := bus.rq ++ [read] } ∧
      (read.instrId, read.vAddress) = (packet.instrId, packet.vAddress) :=
  ⟨_, addRq_appends sent, rfl⟩

theorem issueLoads_reads (time : Nat) (loads : Nat × Channel) (lq : List (Option LsqEntry))
    (result : List (Option LsqEntry) × (Nat × Channel))
    (ran : Queue.sweep (issueLoad config time) loads lq = some result) :
    ∃ reads : List Request, result.2.2.rq = loads.2.rq ++ reads ∧
      reads.map (fun packet => (packet.instrId, packet.vAddress)) =
        (List.zipWith sentLoad lq result.1).reduceOption := by
  induction lq generalizing loads result with
  | nil =>
      cases ran
      exact ⟨[], (List.append_nil _).symm, rfl⟩
  | cons entry rest ih =>
      obtain ⟨⟨visited, next⟩, first, others⟩ := Option.bind_eq_some_iff.mp ran
      obtain ⟨later, remaining, same⟩ := Option.map_eq_some_iff.mp others
      subst same
      obtain ⟨reads, appended, listed⟩ := ih next later remaining
      dsimp only
      rw [List.zipWith_cons_cons]
      rcases issueLoad_cases config time loads next entry visited first with
        ⟨unchanged, bus⟩ | ⟨load, isLoad, _alone, unsent, isSent, sent⟩
      · refine ⟨reads, ?_, ?_⟩
        · rw [appended, bus]
        · rw [unchanged, sentLoad_same, List.reduceOption_cons_of_none]
          exact listed
      · obtain ⟨read, bus, isRead⟩ := issueRead_appends config sent
        refine ⟨read :: reads, ?_, ?_⟩
        · rw [appended, bus]
          dsimp only
          rw [List.append_assoc, List.singleton_append]
        · have operand : sentLoad entry visited = some load.operand := by
            rw [isLoad, isSent]
            exact if_pos ⟨unsent, rfl⟩
          rw [operand, List.reduceOption_cons_of_some, List.map_cons, listed, isRead]
          rfl

theorem issueLoads_slots (time : Nat) (loads : Nat × Channel) (lq : List (Option LsqEntry))
    (result : List (Option LsqEntry) × (Nat × Channel))
    (ran : Queue.sweep (issueLoad config time) loads lq = some result) :
    Keeps lq result.1 ∧ ∀ (slot : Nat) (entry : Option LsqEntry), lq[slot]? = some entry →
      (∀ load, entry = some load → load.producerId ≠ none) → result.1[slot]? = some entry := by
  constructor
  · intro slot after present
    have within := (List.getElem?_eq_some_iff.mp present).1
    rw [Queue.sweep_length _ _ _ _ ran] at within
    obtain ⟨reached, next, visits⟩ := Queue.sweep_visits _ _ _ _ ran slot _ _
      (List.getElem?_eq_getElem within) present
    rw [List.getElem?_eq_getElem within]
    rcases issueLoad_cases config time reached next _ _ visits with
      ⟨unchanged, _bus⟩ | ⟨load, isLoad, _alone, _unsent, isSent, _sent⟩
    · rw [← unchanged]
      exact ⟨after, rfl, rfl, rfl⟩
    · rw [isLoad]
      rw [Option.some.injEq] at isSent
      exact ⟨load, rfl, by rw [isSent], by rw [isSent]⟩
  · intro slot entry present bound
    obtain ⟨reached, visited, next, visits, there⟩ := Queue.sweep_at _ _ _ _ ran slot entry present
    rcases issueLoad_cases config time reached next entry visited visits with
      ⟨unchanged, _bus⟩ | ⟨load, isLoad, alone, _unsent, _isSent, _sent⟩
    · rw [there, unchanged]
    · exact absurd alone (bound load isLoad)

theorem operateLsq_slots (state next : O3Cpu Module) (ran : state.operateLsq config = some next) :
    Keeps state.lq next.lq ∧ (∀ slot ∈ state.released config, next.lq[slot]? = some none) ∧
      ∀ (slot : Nat) (load : LsqEntry), state.lq[slot]? = some (some load) →
        load.producerId ≠ none → slot ∉ state.released config →
          next.lq[slot]? = some (some load) := by
  obtain ⟨memory, completed, loaded, finishes, _completes, issued, same⟩ :=
    operateLsq_parts config state next ran
  have cleared : Cleared (state.released config) state.lq memory.2 :=
    finishStores_cleared (state.finishing config) _ memory finishes
  obtain ⟨keeps, stays⟩ := issueLoads_slots config _ _ _ _ issued
  subst same
  refine ⟨cleared.keeps.trans keeps, ?_, ?_⟩
  · intro slot member
    apply stays slot none
    · rw [cleared.slots slot, if_pos member]
    · intro load impossible
      cases impossible
  · intro slot load present bound outside
    apply stays slot (some load)
    · rw [cleared.slots slot, if_neg outside]
      exact present
    · intro other isLoad
      rw [← Option.some.inj isLoad]
      exact bound

theorem operateLsq_reads (state next : O3Cpu Module) (ran : state.operateLsq config = some next) :
    ∃ reads : List Request, next.l1dBus.rq = state.l1dBus.rq ++ reads ∧
      reads.map (fun packet => (packet.instrId, packet.vAddress)) =
        (List.zipWith sentLoad state.lq next.lq).reduceOption := by
  obtain ⟨memory, completed, loaded, finishes, completes, issued, same⟩ :=
    operateLsq_parts config state next ran
  have cleared : Cleared (state.released config) state.lq memory.2 :=
    finishStores_cleared (state.finishing config) _ memory finishes
  obtain ⟨_gone, writes, _split, bus, _written, _attempted⟩ := completeStores_writes config
    state.isComplete (config.sqWidth - (state.finishing config).length) state.l1dBus
    (state.finishedQueue config)
  rw [completes] at bus
  obtain ⟨reads, appended, listed⟩ := issueLoads_reads config _ _ _ _ issued
  obtain ⟨_keeps, stays⟩ := issueLoads_slots config _ _ _ _ issued
  subst same
  refine ⟨reads, ?_, ?_⟩
  · rw [appended, bus]
  · rw [listed]
    apply congrArg
    apply List.ext_getElem?
    intro slot
    rw [List.getElem?_zipWith, List.getElem?_zipWith]
    by_cases empties : slot ∈ state.released config
    · have emptied : memory.2[slot]? = some none := by
        rw [cleared.slots slot, if_pos empties]
      have left : loaded.1[slot]? = some none := by
        apply stays slot none emptied
        intro load impossible
        cases impossible
      have within := (List.getElem?_eq_some_iff.mp emptied).1
      rw [cleared.length] at within
      rw [emptied, left, List.getElem?_eq_getElem within]
      cases state.lq[slot] with
      | none => rfl
      | some load => rfl
    · rw [cleared.slots slot, if_neg empties]

theorem operateLsq_stores (state next : O3Cpu Module) (accounted : state.Accounted)
    (ran : state.operateLsq config = some next) (store : LsqEntry) (member : store ∈ state.sq)
    (pending : store.fetchIssued = false) (waits : store ∉ state.finishing config) :
    store ∈ next.sq := by
  obtain ⟨memory, completed, loaded, _finishes, completes, _issued, same⟩ :=
    operateLsq_parts config state next ran
  obtain ⟨gone, split, complete⟩ := completeStores_suffix config state.isComplete
    (config.sqWidth - (state.finishing config).length) state.l1dBus (state.finishedQueue config)
  rw [completes] at split
  have inQueue : store ∈ state.finishedQueue config := by
    rw [← finishing_split config state] at member
    rcases List.mem_append.mp member with issued | later
    · rw [List.mem_takeWhile_imp issued] at pending
      cases pending
    · rcases List.mem_append.mp later with finishes | remains
      · exact absurd finishes waits
      · exact List.mem_append_right _ remains
  rw [← split] at inQueue
  subst same
  rcases List.mem_append.mp inQueue with left | stays
  · have retired := (Bool.and_eq_true_iff.mp (complete store left)).1
    have sameIds : (accountsOf state.rob).map (fun account => account.instrId) = ids state.rob := by
      unfold accountsOf
      rw [List.map_map]
      rfl
    rw [retired_finished state.rob (accountsOf state.rob) sameIds accounted store member retired]
      at pending
    cases pending
  · exact stays

theorem operateLsq_storesOf (state next : O3Cpu Module) (ran : state.operateLsq config = some next)
    (instrId : Nat) : storesOf next.sq instrId ≤ storesOf state.sq instrId := by
  obtain ⟨memory, completed, loaded, _finishes, completes, _issued, same⟩ :=
    operateLsq_parts config state next ran
  obtain ⟨gone, split, _complete⟩ := completeStores_suffix config state.isComplete
    (config.sqWidth - (state.finishing config).length) state.l1dBus (state.finishedQueue config)
  rw [completes] at split
  have left : next.sq = completed.1 := by rw [same]
  have fewer : storesOf next.sq instrId ≤ storesOf (state.finishedQueue config) instrId := by
    rw [left, ← split]
    unfold storesOf
    rw [List.countP_append]
    omega
  have finished : storesOf ((state.finishing config).map
      (fun entry => { entry with fetchIssued := true, readyTime := some state.currentTime }))
        instrId = 0 := by
    apply List.countP_eq_zero.mpr
    intro entry among mine
    obtain ⟨_store, _inFinishing, isEntry⟩ := List.mem_map.mp among
    rw [← isEntry] at mine
    exact Bool.false_ne_true ((Bool.and_eq_true_iff.mp mine).2)
  have whole := congrArg (fun sq => storesOf sq instrId) (finishing_split config state)
  unfold finishedQueue at fewer
  unfold storesOf at whole fewer finished ⊢
  rw [List.countP_append, List.countP_append] at whole fewer
  omega

end O3Cpu

end ChampSim.Core

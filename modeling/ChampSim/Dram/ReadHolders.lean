/-
Every stage of a channel's cycle hands the reads over.

An occupied entry of the read queue holds the levels that wait for it and the
instructions of all reads that were merged into it. A stage answers an entry,
merges one into another of the same block, or leaves what it holds alone.
-/

import ChampSim.Dram.SlotCollisions
import ChampSim.Library.Custody

set_option autoImplicit false

namespace ChampSim.Dram

open Cache (Request Response setUnion mem_setUnion setUnion_increases)
open Custody (Holder Moves)
open Outcome (Ends need ends_anything)

/-! ### What an entry holds -/

abbrev Place := Nat × BitVec 64

def AddressMapping.block (mapping : AddressMapping) (address : Address) : BitVec 64 :=
  address.sliceUpper mapping.addressSlicer.offset.size

namespace DramRequest

def shape (entry : DramRequest) : Address × List Nat × List Nat :=
  (entry.address, entry.instrDependOnMe, entry.toReturn)

def holder (mapping : AddressMapping) (number : Nat) (entry : DramRequest) : Holder Place where
  place := (number, mapping.block entry.address)
  toReturn := entry.toReturn
  tokens := entry.instrDependOnMe

end DramRequest

def held (mapping : AddressMapping) (number : Nat) (queue : RequestQueue) : List (Holder Place) :=
  (queue.filterMap id).map (DramRequest.holder mapping number)

/-- A response for the block of a holder, with all that it holds, to each of its levels once. -/
structure Replies (mapping : AddressMapping) (response : Response) (holder : Holder Place) : Prop where
  block : mapping.block response.address = holder.place.2
  tokens : response.instrDependOnMe = holder.tokens
  increases : holder.toReturn.Pairwise (· < ·)

def pushesOf (answer : Holder Place × Response) : List (Nat × Response) :=
  answer.1.toReturn.map (fun level => (level, answer.2))

/-- The holders are handed over, and the answers are pushed. -/
def Delivers (mapping : AddressMapping) (before : List (Holder Place))
    (pushes : List (Nat × Response)) (after : List (Holder Place)) : Prop :=
  ∃ answers, Moves (fun _ _ => False) (Replies mapping) before answers after ∧
    pushes = answers.flatMap pushesOf

namespace Delivers

variable {mapping : AddressMapping} {before middle after : List (Holder Place)}
  {pushes others : List (Nat × Response)}

theorem perm (same : before.Perm after) : Delivers mapping before [] after :=
  ⟨[], .reorder before after same, rfl⟩

theorem same (held : after = before) : Delivers mapping before [] after :=
  perm (by rw [held])

theorem trans (first : Delivers mapping before pushes middle)
    (second : Delivers mapping middle others after) :
    Delivers mapping before (pushes ++ others) after := by
  obtain ⟨answers, moves, isPushes⟩ := first
  obtain ⟨more, later, isOthers⟩ := second
  refine ⟨answers ++ more, moves.trans later, ?_⟩
  rw [isPushes, isOthers, List.flatMap_append]

theorem frame (delivers : Delivers mapping before pushes after) (rest : List (Holder Place)) :
    Delivers mapping (before ++ rest) pushes (after ++ rest) := by
  obtain ⟨answers, moves, isPushes⟩ := delivers
  exact ⟨answers, moves.frame rest, isPushes⟩

theorem framed (delivers : Delivers mapping before pushes after) (front : List (Holder Place)) :
    Delivers mapping (front ++ before) pushes (front ++ after) := by
  obtain ⟨answers, moves, isPushes⟩ := delivers
  exact ⟨answers, ((moves.frame front).before_perm List.perm_append_comm).after_perm
    List.perm_append_comm, isPushes⟩

theorem answer (number : Nat) {entry : DramRequest} (data : Address)
    (increases : entry.toReturn.Pairwise (· < ·))
    (same : before.Perm (entry.holder mapping number :: after)) :
    Delivers mapping before (entry.pushes data) after := by
  refine ⟨[(entry.holder mapping number, entry.response data)],
    (Moves.answer _ _ after ⟨rfl, rfl, increases⟩).before_perm same, ?_⟩
  rw [List.flatMap_singleton]
  rfl

end Delivers

/-! ### One entry of a queue -/

section Entry

variable {queue : RequestQueue} {index : Nat} {entry : DramRequest}

theorem set_of_entryAt (present : entryAt queue index = some entry) :
    queue.set index (some entry) = queue := by
  obtain ⟨within, isEntry⟩ := List.getElem?_eq_some_iff.mp (Option.join_eq_some_iff.mp present)
  rw [← isEntry]
  exact List.set_getElem_self within

theorem held_set (mapping : AddressMapping) (number : Nat) (within : index < queue.length) :
    ∃ rest, ∀ stored, (held mapping number (queue.set index stored)).Perm
      (stored.toList.map (DramRequest.holder mapping number) ++ rest) := by
  refine ⟨held mapping number (queue.take index) ++ held mapping number (queue.drop (index + 1)), ?_⟩
  intro stored
  unfold held
  rw [List.set_eq_take_append_cons_drop, if_pos within, List.filterMap_append, List.map_append]
  cases stored with
  | none => exact List.Perm.refl _
  | some entry => exact List.perm_middle

theorem held_remove (mapping : AddressMapping) (number : Nat)
    (present : entryAt queue index = some entry) :
    (held mapping number queue).Perm
      (entry.holder mapping number :: held mapping number (queue.set index none)) := by
  obtain ⟨rest, split⟩ := held_set mapping number (entryAt_lt present)
  have whole := split (some entry)
  rw [set_of_entryAt present] at whole
  exact whole.trans ((split none).symm.cons _)

theorem shapes_set (present : entryAt queue index = some entry) {stored : DramRequest}
    (same : stored.shape = entry.shape) :
    (queue.set index (some stored)).map (Option.map DramRequest.shape) =
      queue.map (Option.map DramRequest.shape) := by
  rw [List.map_set, Option.map_some, same, ← Option.map_some, ← List.map_set,
    set_of_entryAt present]

theorem held_congr (mapping : AddressMapping) (number : Nat) {next : RequestQueue}
    (same : next.map (Option.map DramRequest.shape) = queue.map (Option.map DramRequest.shape)) :
    held mapping number next = held mapping number queue := by
  have shaped : ∀ items : RequestQueue, held mapping number items =
      (items.map (Option.map DramRequest.shape)).filterMap (Option.map (fun shape =>
        ⟨(number, mapping.block shape.1), shape.2.2, shape.2.1⟩)) := by
    intro items
    unfold held
    rw [List.map_filterMap, List.filterMap_map]
    apply List.filterMap_congr
    intro slot _member
    cases slot <;> rfl
  rw [shaped, shaped, same]

end Entry

/-! ### The stages -/

/-- The levels of a read increase, and no level waits for a write. -/
structure Plain (channel : DramChannel) : Prop where
  reads : ∀ entry, some entry ∈ channel.rq → entry.toReturn.Pairwise (· < ·)
  writes : ∀ entry, some entry ∈ channel.wq → entry.toReturn = []

theorem Plain.of_packetAt {channel : DramChannel} (plain : Plain channel) {index : Nat}
    {entry : DramRequest} (present : channel.packetAt (.wq, index) = some entry) :
    entry.toReturn = [] :=
  plain.writes entry (List.mem_of_getElem? (Option.join_eq_some_iff.mp present))

structure SameReads (before after : DramChannel) : Prop where
  rq : after.rq.map (Option.map DramRequest.shape) = before.rq.map (Option.map DramRequest.shape)
  wq : after.wq.map (Option.map DramRequest.shape) = before.wq.map (Option.map DramRequest.shape)

theorem SameReads.plain {before after : DramChannel} (same : SameReads before after)
    (plain : Plain before) : Plain after := by
  have found : ∀ (queue next : RequestQueue),
      next.map (Option.map DramRequest.shape) = queue.map (Option.map DramRequest.shape) →
      ∀ entry, some entry ∈ next → ∃ old, some old ∈ queue ∧ old.shape = entry.shape := by
    intro queue next shapes entry member
    have inShapes := List.mem_map_of_mem (f := Option.map DramRequest.shape) member
    rw [shapes] at inShapes
    obtain ⟨slot, inQueue, isShape⟩ := List.mem_map.mp inShapes
    obtain ⟨old, isOld, sameShape⟩ := Option.map_eq_some_iff.mp isShape
    rw [isOld] at inQueue
    exact ⟨old, inQueue, sameShape⟩
  constructor
  · intro entry member
    obtain ⟨old, inQueue, shape⟩ := found _ _ same.rq entry member
    have levels : old.toReturn = entry.toReturn := congrArg (fun parts => parts.2.2) shape
    rw [← levels]
    exact plain.reads old inQueue
  · intro entry member
    obtain ⟨old, inQueue, shape⟩ := found _ _ same.wq entry member
    have levels : old.toReturn = entry.toReturn := congrArg (fun parts => parts.2.2) shape
    rw [← levels]
    exact plain.writes old inQueue

theorem sameReads_refl (channel : DramChannel) : SameReads channel channel := ⟨rfl, rfl⟩

theorem SameReads.trans {before middle after : DramChannel} (first : SameReads before middle)
    (second : SameReads middle after) : SameReads before after :=
  ⟨second.rq.trans first.rq, second.wq.trans first.wq⟩

theorem sameReads_store {channel : DramChannel} {place : Side × Nat} {entry stored : DramRequest}
    (present : channel.packetAt place = some entry) (same : stored.shape = entry.shape) :
    SameReads channel (channel.store place (some stored)) := by
  obtain ⟨side, index⟩ := place
  cases side with
  | wq => exact ⟨rfl, shapes_set present same⟩
  | rq => exact ⟨shapes_set present same, rfl⟩

variable {mapping : AddressMapping} {number : Nat} {channel middle last : DramChannel}

def Serves (mapping : AddressMapping) (number : Nat) (channel : DramChannel)
    (result : DramChannel × List (Nat × Response)) : Prop :=
  Plain result.1 ∧
    Delivers mapping (held mapping number channel.rq) result.2 (held mapping number result.1.rq)

theorem SameReads.serves (same : SameReads channel last) (plain : Plain channel) :
    Serves mapping number channel (last, []) :=
  ⟨same.plain plain, Delivers.same (held_congr mapping number same.rq)⟩

theorem Serves.trans {pushes others : List (Nat × Response)}
    (first : Serves mapping number channel (middle, pushes))
    (second : Serves mapping number middle (last, others)) :
    Serves mapping number channel (last, pushes ++ others) :=
  ⟨second.1, first.2.trans second.2⟩

namespace DramChannel

theorem flush_serves (plain : Plain channel) : Serves mapping number channel channel.flush := by
  refine ⟨⟨?_, ?_⟩, ?_⟩
  · intro entry member
    obtain ⟨_slot, _inQueue, impossible⟩ := List.mem_map.mp member
    cases impossible
  · intro entry member
    obtain ⟨_slot, _inQueue, impossible⟩ := List.mem_map.mp member
    cases impossible
  · have increases := plain.reads
    unfold flush
    dsimp only
    generalize channel.rq = queue at increases ⊢
    induction queue with
    | nil => exact Delivers.same rfl
    | cons slot rest ih =>
        have others := ih (fun entry member => increases entry (List.mem_cons_of_mem _ member))
        rw [List.flatMap_cons]
        cases slot with
        | none => exact others
        | some entry =>
            exact (Delivers.answer number entry.data (increases entry List.mem_cons_self)
              (List.Perm.refl _)).trans others

/-! ### Collisions -/

theorem checkWriteCollision_serves (plain : Plain channel) :
    Serves mapping number channel (checkWriteCollision mapping channel, []) := by
  refine ⟨⟨plain.reads, ?_⟩, Delivers.same rfl⟩
  unfold checkWriteCollision
  dsimp only
  refine List.foldlRecOn (motive := fun wq : RequestQueue =>
    ∀ entry, some entry ∈ wq → entry.toReturn = []) _ _ plain.writes ?_
  intro wq silent index _member
  unfold checkWrite
  split
  case h_1 => exact silent
  case h_2 entry present =>
    have isSilent := silent entry (List.mem_of_getElem? (Option.join_eq_some_iff.mp present))
    split
    case isTrue => exact silent
    case isFalse =>
      split
      case h_1 =>
        intro other member
        rcases List.mem_or_eq_of_mem_set member with before | written
        · exact silent other before
        · cases written
      case h_2 =>
        intro other member
        rcases List.mem_or_eq_of_mem_set member with before | written
        · exact silent other before
        · cases written
          exact isSilent

def Increases (queue : RequestQueue) : Prop :=
  ∀ entry, some entry ∈ queue → entry.toReturn.Pairwise (· < ·)

theorem Increases.set {queue : RequestQueue} (increases : Increases queue) (index : Nat)
    (stored : Option DramRequest)
    (kept : ∀ entry, stored = some entry → entry.toReturn.Pairwise (· < ·)) :
    Increases (queue.set index stored) := by
  intro entry member
  rcases List.mem_or_eq_of_mem_set member with before | written
  · exact increases entry before
  · exact kept entry written.symm

theorem Increases.entryAt {queue : RequestQueue} (increases : Increases queue) {index : Nat}
    {entry : DramRequest} (present : entryAt queue index = some entry) :
    entry.toReturn.Pairwise (· < ·) :=
  increases entry (List.mem_of_getElem? (Option.join_eq_some_iff.mp present))

/-- A read that is merged leaves the queue, and the other read holds what it held. -/
theorem merge_delivers {queue : RequestQueue} {index found : Nat} {entry other : DramRequest}
    (present : entryAt queue index = some entry) (isOther : entryAt queue found = some other)
    (sameBlock : mapping.isCollision other.address entry.address = true)
    (differs : found ≠ index) :
    Delivers mapping (held mapping number queue) []
      (held mapping number ((queue.set found (some (entry.merge other))).set index none)) := by
  have leaves := held_remove mapping number present
  have stays : entryAt (queue.set index none) found = some other := by
    rw [entryAt_set, if_neg (fun both => differs both.1.symm)]
    exact isOther
  obtain ⟨rest, split⟩ := held_set mapping number (entryAt_lt stays)
  have whole := split (some other)
  rw [set_of_entryAt stays] at whole
  rw [List.set_comm _ _ differs]
  have blocks : mapping.block other.address = mapping.block entry.address :=
    of_decide_eq_true sameBlock
  refine ⟨[], Moves.after_perm (Moves.before_perm
    (.merge (entry.holder mapping number) (other.holder mapping number)
      ((entry.merge other).holder mapping number) rest ?_ rfl ?_ ?_)
    (leaves.trans (whole.cons _))) (split (some (entry.merge other))).symm, rfl⟩
  · exact congrArg (Prod.mk number) blocks
  · intro level
    exact (mem_setUnion _ _ level).trans or_comm
  · intro token
    exact (mem_setUnion _ _ token).trans or_comm

theorem checkRead_delivers (number : Nat) (wq : RequestQueue)
    (state : RequestQueue × List (Nat × Response))
    (index : Nat) (increases : Increases state.1) :
    Increases (checkRead mapping wq state index).1 ∧
      ∃ pushes, (checkRead mapping wq state index).2 = state.2 ++ pushes ∧
        Delivers mapping (held mapping number state.1) pushes
          (held mapping number (checkRead mapping wq state index).1) := by
  have quiet : Increases state.1 ∧ ∃ pushes, state.2 = state.2 ++ pushes ∧
      Delivers mapping (held mapping number state.1) pushes (held mapping number state.1) :=
    ⟨increases, [], (List.append_nil _).symm, Delivers.same rfl⟩
  unfold checkRead
  split
  case h_1 => exact quiet
  case h_2 entry present =>
    split
    case isTrue => exact quiet
    case isFalse =>
      split
      case h_1 write _search =>
        exact ⟨increases.set index none (by simp), _, rfl,
          Delivers.answer number write.data (increases.entryAt present)
            (held_remove mapping number present)⟩
      case h_2 =>
        split
        case h_1 found search =>
          obtain ⟨other, isOther, sameBlock, differs⟩ := AddressMapping.findOther_spec search
          rw [modify_eq_set isOther]
          refine ⟨(increases.set found _ ?_).set index none (by simp), [],
            (List.append_nil _).symm, merge_delivers present isOther sameBlock differs⟩
          intro merged same
          cases same
          exact setUnion_increases _ _ (increases.entryAt isOther) (increases.entryAt present)
        case h_2 =>
          refine ⟨increases.set index _ ?_, [], (List.append_nil _).symm,
            Delivers.same (held_congr mapping number (shapes_set present rfl))⟩
          intro checked same
          cases same
          have old := increases.entryAt present
          exact old

theorem checkReadCollision_serves (plain : Plain channel) :
    Serves mapping number channel (checkReadCollision mapping channel) := by
  have kept : ∀ (indices : List Nat) (state : RequestQueue × List (Nat × Response)),
      Increases state.1 →
      Increases (indices.foldl (checkRead mapping channel.wq) state).1 ∧
        ∃ pushes, (indices.foldl (checkRead mapping channel.wq) state).2 = state.2 ++ pushes ∧
          Delivers mapping (held mapping number state.1) pushes
            (held mapping number (indices.foldl (checkRead mapping channel.wq) state).1) := by
    intro indices
    induction indices with
    | nil =>
        intro state increases
        exact ⟨increases, [], (List.append_nil _).symm, Delivers.same rfl⟩
    | cons index rest ih =>
        intro state increases
        obtain ⟨between, pushes, isPushes, first⟩ :=
          checkRead_delivers number channel.wq state index increases
        obtain ⟨after, others, isOthers, second⟩ := ih _ between
        refine ⟨after, pushes ++ others, ?_, first.trans second⟩
        rw [List.foldl_cons, isOthers, isPushes, List.append_assoc]
  obtain ⟨increases, pushes, isPushes, delivers⟩ :=
    kept (List.range channel.rq.length) (channel.rq, []) plain.reads
  rw [List.nil_append] at isPushes
  rw [← isPushes] at delivers
  exact ⟨⟨increases, plain.writes⟩, delivers⟩

end DramChannel

end ChampSim.Dram

/-
What a memory controller owes to one of the levels above it.

The requests of the level for a block, the entries that name it and the
responses on their way back are counted together. While they are one at most,
everything that the controller does keeps their number.
-/

import ChampSim.Dram.ReadLedger
import ChampSim.Cache.Stack

set_option autoImplicit false

namespace ChampSim.Dram

open Cache (Request Response setUnion count_setUnion)
open Custody (Holder)
open Outcome (Ends ends_anything need_value)

/-! ### Holders and answers -/

section Counts

variable (level : Nat) (block : BitVec 64)

def owedTo (holders : List (Holder Place)) : Nat :=
  (holders.map (fun holder =>
    if holder.place.2 = block then holder.toReturn.count level else 0)).sum

/-- How many answers for a block are pushed on the queue of a level. -/
def sentTo (mapping : AddressMapping) (pushes : List (Nat × Response)) : Nat :=
  pushes.countP (fun sent => decide (sent.1 = level ∧ mapping.block sent.2.address = block))

def Settles (mapping : AddressMapping) (before : List (Holder Place))
    (pushes : List (Nat × Response)) (after : List (Holder Place)) : Prop :=
  owedTo level block before ≤ 1 →
    owedTo level block after + sentTo level block mapping pushes = owedTo level block before

variable {level block} {mapping : AddressMapping} {before middle after : List (Holder Place)}
  {pushes others : List (Nat × Response)}

@[simp] theorem owedTo_cons (holder : Holder Place) (rest : List (Holder Place)) :
    owedTo level block (holder :: rest) =
      (if holder.place.2 = block then holder.toReturn.count level else 0) +
        owedTo level block rest := by
  simp [owedTo]

@[simp] theorem owedTo_append (first second : List (Holder Place)) :
    owedTo level block (first ++ second) =
      owedTo level block first + owedTo level block second := by
  simp [owedTo]

theorem owedTo_perm (level : Nat) (block : BitVec 64) (same : before.Perm after) :
    owedTo level block before = owedTo level block after :=
  (same.map _).sum_eq

@[simp] theorem sentTo_append :
    sentTo level block mapping (pushes ++ others) =
      sentTo level block mapping pushes + sentTo level block mapping others :=
  List.countP_append

theorem sentTo_pushes (entry : DramRequest) (data : Address) :
    sentTo level block mapping (entry.pushes data) =
      if mapping.block entry.address = block then entry.toReturn.count level else 0 := by
  unfold sentTo DramRequest.pushes
  rw [List.countP_map]
  by_cases same : mapping.block entry.address = block
  · rw [if_pos same, List.count_eq_countP]
    apply List.countP_congr
    intro other _member
    simp [DramRequest.response, same]
  · rw [if_neg same, List.countP_eq_zero]
    intro other _member
    simp [DramRequest.response, same]

namespace Settles

theorem perm (same : before.Perm after) : Settles level block mapping before [] after := by
  intro _few
  rw [owedTo_perm level block same]
  rfl

theorem same (held : after = before) : Settles level block mapping before [] after :=
  perm (by rw [held])

theorem trans (first : Settles level block mapping before pushes middle)
    (second : Settles level block mapping middle others after) :
    Settles level block mapping before (pushes ++ others) after := by
  intro few
  have here := first few
  have later := second (by omega)
  rw [sentTo_append]
  omega

theorem frame (settles : Settles level block mapping before pushes after)
    (rest : List (Holder Place)) :
    Settles level block mapping (before ++ rest) pushes (after ++ rest) := by
  intro few
  rw [owedTo_append] at few
  have here := settles (by omega)
  rw [owedTo_append, owedTo_append]
  omega

theorem framed (settles : Settles level block mapping before pushes after)
    (front : List (Holder Place)) :
    Settles level block mapping (front ++ before) pushes (front ++ after) := by
  intro few
  rw [owedTo_append] at few
  have here := settles (by omega)
  rw [owedTo_append, owedTo_append]
  omega

theorem answer (number : Nat) {entry : DramRequest} (data : Address)
    (same : before.Perm (entry.holder mapping number :: after)) :
    Settles level block mapping before (entry.pushes data) after := by
  intro _few
  rw [owedTo_perm level block same, owedTo_cons, sentTo_pushes]
  exact Nat.add_comm _ _

end Settles

end Counts

/-! ### The stages of a channel -/

variable {level : Nat} {block : BitVec 64} {mapping : AddressMapping} {number : Nat}
  {channel middle last : DramChannel}

def Pays (level : Nat) (block : BitVec 64) (mapping : AddressMapping) (number : Nat)
    (channel : DramChannel) (result : DramChannel × List (Nat × Response)) : Prop :=
  Plain result.1 ∧
    Settles level block mapping (held mapping number channel.rq) result.2
      (held mapping number result.1.rq)

theorem SameReads.pays (same : SameReads channel last) (plain : Plain channel) :
    Pays level block mapping number channel (last, []) :=
  ⟨same.plain plain, Settles.same (held_congr mapping number same.rq)⟩

theorem Pays.trans {pushes others : List (Nat × Response)}
    (first : Pays level block mapping number channel (middle, pushes))
    (second : Pays level block mapping number middle (last, others)) :
    Pays level block mapping number channel (last, pushes ++ others) :=
  ⟨second.1, first.2.trans second.2⟩

namespace DramChannel

theorem flush_pays (plain : Plain channel) :
    Pays level block mapping number channel channel.flush := by
  have served : Serves mapping number channel channel.flush := flush_serves plain
  refine ⟨served.1, ?_⟩
  unfold flush
  dsimp only
  generalize channel.rq = queue
  induction queue with
  | nil => exact Settles.same rfl
  | cons slot rest ih =>
      rw [List.flatMap_cons]
      cases slot with
      | none => exact ih
      | some entry => exact (Settles.answer number entry.data (List.Perm.refl _)).trans ih

theorem checkWriteCollision_pays (plain : Plain channel) :
    Pays level block mapping number channel (checkWriteCollision mapping channel, []) := by
  have served : Serves mapping number channel (checkWriteCollision mapping channel, []) :=
    checkWriteCollision_serves plain
  exact ⟨served.1, Settles.same rfl⟩

theorem merge_settles {queue : RequestQueue} {index found : Nat} {entry other : DramRequest}
    (present : entryAt queue index = some entry) (isOther : entryAt queue found = some other)
    (sameBlock : mapping.isCollision other.address entry.address = true)
    (differs : found ≠ index) :
    Settles level block mapping (held mapping number queue) []
      (held mapping number ((queue.set found (some (entry.merge other))).set index none)) := by
  have leaves := held_remove mapping number present
  have stays : entryAt (queue.set index none) found = some other := by
    rw [entryAt_set, if_neg (fun both => differs both.1.symm)]
    exact isOther
  obtain ⟨rest, split⟩ := held_set mapping number (entryAt_lt stays)
  have whole := split (some other)
  rw [set_of_entryAt stays] at whole
  rw [List.set_comm _ _ differs]
  have blocks : mapping.block other.address = mapping.block entry.address :=
    of_decide_eq_true sameBlock
  have before := owedTo_perm level block (leaves.trans (whole.cons _))
  have after := owedTo_perm level block (split (some (entry.merge other)))
  intro few
  rw [before] at few ⊢
  rw [after]
  have none : sentTo level block mapping [] = 0 := rfl
  simp only [Option.toList_some, List.map_singleton, List.singleton_append, owedTo_cons,
    DramRequest.holder, DramRequest.merge, blocks] at few ⊢
  by_cases here : mapping.block entry.address = block
  · simp only [if_pos here] at few ⊢
    have union := count_setUnion other.toReturn entry.toReturn level (by omega)
    omega
  · simp only [if_neg here]
    omega

theorem checkRead_settles (number : Nat) (wq : RequestQueue)
    (state : RequestQueue × List (Nat × Response)) (index : Nat) :
    ∃ pushes, (checkRead mapping wq state index).2 = state.2 ++ pushes ∧
      Settles level block mapping (held mapping number state.1) pushes
        (held mapping number (checkRead mapping wq state index).1) := by
  have quiet : ∃ pushes, state.2 = state.2 ++ pushes ∧
      Settles level block mapping (held mapping number state.1) pushes
        (held mapping number state.1) :=
    ⟨[], (List.append_nil _).symm, Settles.same rfl⟩
  unfold checkRead
  split
  case h_1 => exact quiet
  case h_2 entry present =>
    split
    case isTrue => exact quiet
    case isFalse =>
      split
      case h_1 write _search =>
        exact ⟨_, rfl, Settles.answer number write.data (held_remove mapping number present)⟩
      case h_2 =>
        split
        case h_1 found search =>
          obtain ⟨other, isOther, sameBlock, differs⟩ := AddressMapping.findOther_spec search
          rw [modify_eq_set isOther]
          exact ⟨[], (List.append_nil _).symm, merge_settles present isOther sameBlock differs⟩
        case h_2 =>
          exact ⟨[], (List.append_nil _).symm,
            Settles.same (held_congr mapping number (shapes_set present rfl))⟩

theorem checkReadCollision_pays (plain : Plain channel) :
    Pays level block mapping number channel (checkReadCollision mapping channel) := by
  have kept : ∀ (indices : List Nat) (state : RequestQueue × List (Nat × Response)),
      ∃ pushes, (indices.foldl (checkRead mapping channel.wq) state).2 = state.2 ++ pushes ∧
        Settles level block mapping (held mapping number state.1) pushes
          (held mapping number (indices.foldl (checkRead mapping channel.wq) state).1) := by
    intro indices
    induction indices with
    | nil =>
        intro state
        exact ⟨[], (List.append_nil _).symm, Settles.same rfl⟩
    | cons index rest ih =>
        intro state
        obtain ⟨pushes, isPushes, first⟩ := checkRead_settles number channel.wq state index
        obtain ⟨others, isOthers, second⟩ := ih (checkRead mapping channel.wq state index)
        refine ⟨pushes ++ others, ?_, first.trans second⟩
        rw [List.foldl_cons, isOthers, isPushes, List.append_assoc]
  obtain ⟨pushes, isPushes, settles⟩ := kept (List.range channel.rq.length) (channel.rq, [])
  rw [List.nil_append] at isPushes
  rw [← isPushes] at settles
  have served : Serves mapping number channel (checkReadCollision mapping channel) :=
    checkReadCollision_serves plain
  exact ⟨served.1, settles⟩

theorem finishDbusRequest_pays (plain : Plain channel) :
    Ends (fun _ => True) channel.finishDbusRequest (Pays level block mapping number channel) := by
  have idle : Pays level block mapping number channel (channel, []) :=
    (sameReads_refl channel).pays plain
  unfold finishDbusRequest
  split
  case h_1 => exact idle
  case h_2 index _isActive =>
    apply (ends_anything _).bind
    intro active _trivial
    split
    case isTrue =>
      apply (ends_anything _).bind
      intro place _trivialToo
      apply (need_value trivial _).bind
      intro entry present
      obtain ⟨side, index⟩ := place
      cases side with
      | wq =>
          have silent := plain.of_packetAt present
          refine ⟨⟨plain.reads, ?_⟩, ?_⟩
          · intro other member
            rcases List.mem_or_eq_of_mem_set member with before | written
            · exact plain.writes other before
            · cases written
          · unfold DramRequest.pushes
            rw [silent]
            exact Settles.same rfl
      | rq =>
          refine ⟨⟨?_, plain.writes⟩, ?_⟩
          · exact Increases.set plain.reads index none (by simp)
          · exact Settles.answer number entry.data (held_remove mapping number present)
    case isFalse => exact idle

theorem screen_pays (level : Nat) (block : BitVec 64) (mapping : AddressMapping) (number : Nat)
    (plain : Plain channel) :
    let flushed := if channel.warmup then channel.flush else (channel, [])
    let read := checkReadCollision mapping (checkWriteCollision mapping flushed.1)
    Pays level block mapping number channel (read.1, flushed.2 ++ read.2) := by
  dsimp only
  have flushed : Pays level block mapping number channel
      (if channel.warmup then channel.flush else (channel, [])) := by
    split
    case isTrue => exact flush_pays plain
    case isFalse => exact (sameReads_refl channel).pays plain
  revert flushed
  generalize (if channel.warmup then channel.flush else (channel, [])) = begun
  intro flushed
  have written : Pays level block mapping number begun.1
      (checkWriteCollision mapping begun.1, []) := checkWriteCollision_pays flushed.1
  have read : Pays level block mapping number (checkWriteCollision mapping begun.1)
      (checkReadCollision mapping (checkWriteCollision mapping begun.1)) :=
    checkReadCollision_pays written.1
  have all := (flushed.trans written).trans read
  rw [List.append_nil] at all
  exact all

theorem operate_pays (config : DramConfig) (number : Nat) (plain : Plain channel) :
    Ends (fun _ => True) (channel.operate config)
      (Pays level block config.addressMapping number channel) := by
  have begun : SameReads channel
      { channel with currentTime := channel.currentTime + config.clockPeriod } := ⟨rfl, rfl⟩
  have screened := screen_pays level block config.addressMapping number (begun.plain plain)
  unfold operate
  apply (finishDbusRequest_pays screened.1).bind
  intro finished answered
  apply (swapWriteMode_same config finished.1).bind
  intro swapped sameSwapped
  apply (populateDbus_same config (scheduleRefresh config swapped)).bind
  intro populated samePopulated
  apply (ends_anything _).bind
  intro pkt _trivial
  apply (servicePacket_same config populated pkt).bind
  intro serviced sameServiced
  have same := ((sameSwapped.trans (scheduleRefresh_same config swapped)).trans
    samePopulated).trans sameServiced
  have all := (screened.trans answered).trans (same.pays answered.1)
  rw [List.append_nil] at all
  exact all

end DramChannel

namespace MemoryController

variable {config : DramConfig} {controller next : MemoryController}

/-! ### The requests of the levels -/

def offsetBits (config : DramConfig) : Nat := config.addressMapping.addressSlicer.offset.size

/-- Whether a request of a level asks for a response that is counted. -/
def asksAt (config : DramConfig) (level : Nat) (block : BitVec 64) (source : Nat)
    (request : Request) : Bool :=
  decide (source = level) && request.asks (offsetBits config) block

/-- The requests of the counted level, in the queues from a level on. -/
def askedFrom (config : DramConfig) (level : Nat) (block : BitVec 64) :
    Nat → List Cache.Channel → Nat
  | _source, [] => 0
  | source, queue :: rest =>
      (queue.rq.countP (asksAt config level block source) +
        queue.pq.countP (asksAt config level block source)) +
        askedFrom config level block (source + 1) rest

def owes (config : DramConfig) (level : Nat) (block : BitVec 64) (controller : MemoryController) :
    Nat :=
  owedTo level block (controller.holders config)

theorem asksAt_other {source : Nat} (differs : source ≠ level) (queue : List Request) :
    queue.countP (asksAt config level block source) = 0 := by
  apply List.countP_eq_zero.mpr
  intro request _member
  simp [asksAt, differs]

theorem asksAt_own : asksAt config level block level =
    Request.asks (offsetBits config) block := by
  funext request
  unfold asksAt
  rw [decide_eq_true rfl, Bool.true_and]

theorem askedFrom_later {source : Nat} (later : level < source) (queues : List Cache.Channel) :
    askedFrom config level block source queues = 0 := by
  induction queues generalizing source with
  | nil => rfl
  | cons queue rest ih =>
      unfold askedFrom
      rw [asksAt_other (Nat.ne_of_gt later), asksAt_other (Nat.ne_of_gt later),
        ih (Nat.lt_succ_of_lt later)]

theorem askedFrom_eq (config : DramConfig) (block : BitVec 64) {queue : Cache.Channel}
    (queues : List Cache.Channel) (source place : Nat) (present : queues[place]? = some queue) :
    askedFrom config (source + place) block source queues =
      queue.asked (offsetBits config) block := by
  induction queues generalizing source place with
  | nil => cases present
  | cons first rest ih =>
      cases place with
      | zero =>
          cases present
          unfold askedFrom
          rw [Nat.add_zero, askedFrom_later (Nat.lt_succ_self _), asksAt_own]
          rfl
      | succ place =>
          unfold askedFrom
          rw [asksAt_other (by omega), asksAt_other (by omega), Nat.zero_add,
            show source + (place + 1) = source + 1 + place by omega]
          exact ih (source + 1) place present

theorem addRq_owes (config : DramConfig) (level : Nat) (block : BitVec 64)
    (controller : MemoryController) (packet : Request) (source : Nat) :
    Ends (fun _ => True) (controller.addRq config packet source) (fun added =>
      ∀ joined, added = some joined → owes config level block joined =
        owes config level block controller +
          [packet].countP (asksAt config level block source)) := by
  apply (addRq_cases packet source).mono
  intro added cases joined isJoined
  obtain ⟨index, channel, rq, _isIndex, present, accepted, same⟩ := cases joined isJoined
  obtain ⟨rest, before, after⟩ := holdersFrom_split config.addressMapping present
  obtain ⟨enters, _entries⟩ := held_join config.addressMapping index accepted
  have whole : (joined.holders config).Perm
      (⟨(index, config.addressMapping.block packet.address),
        if packet.responseRequested then [source] else [], packet.instrDependOnMe⟩ ::
          controller.holders config) := by
    rw [same]
    exact (after _).trans ((enters.append_right rest).trans (before.symm.cons _))
  unfold owes
  rw [owedTo_perm level block whole, owedTo_cons, List.countP_singleton, Nat.add_comm]
  apply congrArg
  unfold asksAt Request.asks
  change (if packet.address.sliceUpper (offsetBits config) = block then _ else 0) = _
  by_cases here : packet.address.sliceUpper (offsetBits config) = block
  · rw [if_pos here, decide_eq_true here]
    cases packet.responseRequested with
    | true => simp [List.count_singleton]
    | false => simp
  · simp [here]

theorem addWq_owes (config : DramConfig) (level : Nat) (block : BitVec 64)
    (controller : MemoryController) (packet : Request) :
    Ends (fun _ => True) (controller.addWq config packet) (fun added =>
      ∀ joined, added = some joined → owes config level block joined =
        owes config level block controller + [packet].countP (fun _ => false)) := by
  unfold addWq
  apply (ends_anything _).bind
  intro index _trivial
  apply (need_value trivial _).bind
  intro channel present joined isJoined
  obtain ⟨accepted, isWq, same⟩ := Option.map_eq_some_iff.mp isJoined
  obtain ⟨wq, _isQueue, isAccepted⟩ := Option.map_eq_some_iff.mp isWq
  obtain ⟨rest, before, after⟩ := holdersFrom_split config.addressMapping present
  rw [← same, ← isAccepted]
  exact owedTo_perm level block ((after _).trans before.symm)

/-- The requests that are left are the last ones, and the others are owed. -/
theorem addSpan_owes
    {add : MemoryController → Request → Except Fault (Option MemoryController)}
    (asks : Request → Bool)
    (each : ∀ state packet, Ends (fun _ => True) (add state packet) (fun added =>
      ∀ joined, added = some joined → owes config level block joined =
        owes config level block state + [packet].countP asks))
    (packets : List Request) (controller : MemoryController) :
    Ends (fun _ => True) (addSpan add controller packets) (fun added =>
      added.1.countP asks + owes config level block added.2 =
          packets.countP asks + owes config level block controller ∧
        added.1 <:+ packets) := by
  induction packets generalizing controller with
  | nil => exact ⟨rfl, List.suffix_refl _⟩
  | cons packet rest ih =>
      unfold addSpan
      apply (each controller packet).bind
      intro added joins
      cases added with
      | none => exact ⟨rfl, List.suffix_refl _⟩
      | some joined =>
          apply (ih joined).mono
          rintro ⟨left, reached⟩ ⟨balance, suffix⟩
          have here := joins joined rfl
          have split : (packet :: rest).countP asks = [packet].countP asks + rest.countP asks := by
            rw [← List.countP_append, List.singleton_append]
          refine ⟨?_, suffix.trans (List.suffix_cons packet rest)⟩
          dsimp only at balance ⊢
          omega

structure Leaves (queue left : Cache.Channel) : Prop where
  returned : left.returned = queue.returned
  plain : queue.Plain → left.Plain

theorem initiateLevel_owes (config : DramConfig) (level : Nat) (block : BitVec 64)
    (controller : MemoryController) (source : Nat) (queue : Cache.Channel) :
    Ends (fun _ => True) (initiateLevel config controller source queue) (fun initiated =>
      (initiated.1.rq.countP (asksAt config level block source) +
          initiated.1.pq.countP (asksAt config level block source)) +
          owes config level block initiated.2 =
        (queue.rq.countP (asksAt config level block source) +
          queue.pq.countP (asksAt config level block source)) +
          owes config level block controller ∧ Leaves queue initiated.1) := by
  have reads := fun state packet => addRq_owes config level block state packet source
  have writes := addWq_owes config level block
  unfold initiateLevel
  apply (addSpan_owes _ reads queue.rq controller).bind
  rintro first ⟨firstBalance, firstLeft⟩
  apply (addSpan_owes _ reads queue.pq first.2).bind
  rintro second ⟨secondBalance, secondLeft⟩
  apply (addSpan_owes _ writes queue.wq second.2).bind
  rintro last ⟨lastBalance, lastLeft⟩
  simp only [List.countP_false, Function.const_apply, Nat.zero_add] at lastBalance
  refine ⟨?_, rfl, ?_⟩
  · dsimp only
    omega
  · intro plain
    obtain ⟨readsPlain, prefetchesPlain⟩ := List.forall_mem_append.mp plain.reads
    constructor
    · intro request member
      rcases List.mem_append.mp member with inReads | inPrefetches
      · exact readsPlain request (firstLeft.subset inReads)
      · exact prefetchesPlain request (secondLeft.subset inPrefetches)
    · intro request member
      exact plain.writes request (lastLeft.subset member)

theorem initiateLevels_owes (config : DramConfig) (level : Nat) (block : BitVec 64)
    (queues : List Cache.Channel) (source : Nat) (controller : MemoryController) :
    Ends (fun _ => True) (initiateLevels config source queues controller) (fun initiated =>
      askedFrom config level block source initiated.1 + owes config level block initiated.2 =
          askedFrom config level block source queues + owes config level block controller ∧
        List.Forall₂ Leaves queues initiated.1) := by
  induction queues generalizing source controller with
  | nil => exact ⟨rfl, .nil⟩
  | cons queue rest ih =>
      unfold initiateLevels
      apply (initiateLevel_owes config level block controller source queue).bind
      rintro initiated ⟨balance, leaves⟩
      apply (ih (source + 1) initiated.2).bind
      rintro others ⟨othersBalance, othersLeave⟩
      refine ⟨?_, .cons leaves othersLeave⟩
      unfold askedFrom
      dsimp only
      omega

/-! ### The channels operate -/

theorem operateChannels_settles (level : Nat) (block : BitVec 64) (channels : List DramChannel)
    (number : Nat) (plain : ∀ channel ∈ channels, Plain channel) :
    Ends (fun _ => True) (operateChannels config channels) (fun operated =>
      Settles level block config.addressMapping (holdersFrom config.addressMapping number channels)
        operated.2 (holdersFrom config.addressMapping number operated.1)) := by
  induction channels generalizing number with
  | nil => exact Settles.same rfl
  | cons channel rest ih =>
      unfold operateChannels
      apply (DramChannel.operate_pays config number (plain channel List.mem_cons_self)).bind
      rintro operated ⟨_plain, first⟩
      apply (ih (number + 1) (fun other later => plain other (List.mem_cons_of_mem _ later))).bind
      intro others second
      exact (first.frame _).trans (second.framed _)

theorem foldl_push_queue (level : Nat) (pushes : List (Nat × Response))
    (controller : MemoryController) {queue : Cache.Channel}
    (present : controller.queues[level]? = some queue) :
    (pushes.foldl push controller).queues[level]? = some
      { queue with
        returned := queue.returned ++
          (pushes.filter (fun sent => decide (sent.1 = level))).map Prod.snd } := by
  induction pushes generalizing controller queue with
  | nil => simp [present]
  | cons sent rest ih =>
      rw [List.foldl_cons]
      by_cases same : sent.1 = level
      · have pushed : (controller.push sent).queues[level]? = some (queue.pushReturned sent.2) := by
          unfold push
          rw [List.getElem?_modify, present]
          exact congrArg some (if_pos same)
        rw [ih _ pushed]
        simp [Cache.Channel.pushReturned, same]
      · have kept : (controller.push sent).queues[level]? = some queue := by
          unfold push
          rw [List.getElem?_modify, present]
          exact congrArg some (if_neg same)
        rw [ih _ kept]
        simp [same]

theorem replied_pushes (pushes : List (Nat × Response)) :
    ((pushes.filter (fun sent => decide (sent.1 = level))).map Prod.snd).countP
        (Response.answers (offsetBits config) block) =
      sentTo level block config.addressMapping pushes := by
  rw [List.countP_map, List.countP_filter]
  apply List.countP_congr
  intro sent _member
  unfold Response.answers offsetBits AddressMapping.block
  simp [and_comm]

/-- A cycle keeps the responses that a level is due, when they are one at most. -/
theorem operate_due (kept : Kept config controller) {queue : Cache.Channel}
    (present : controller.queues[level]? = some queue) (plain : queue.Plain)
    (few : queue.due (offsetBits config) block (owes config level block controller) ≤ 1)
    (ran : controller.operate config = .ok next) :
    ∃ left, next.queues[level]? = some left ∧ left.Plain ∧
      left.due (offsetBits config) block (owes config level block next) =
        queue.due (offsetBits config) block (owes config level block controller) := by
  unfold operate at ran
  obtain ⟨initiated, initiates, ran⟩ := Outcome.bind_ok ran
  obtain ⟨operated, operates, ran⟩ := Outcome.bind_ok ran
  have begun : Kept config
      { controller with currentTime := controller.currentTime + config.clockPeriod } :=
    kept.same kept.plain rfl (List.Perm.refl _)
  have keptInitiated := (initiateRequests_kept begun).of_ok initiates
  unfold initiateRequests at initiates
  obtain ⟨⟨queues, reached⟩, levels, same⟩ := Outcome.bind_ok initiates
  cases same
  obtain ⟨balance, leave⟩ := (initiateLevels_owes config level block controller.queues 0 _).of_ok
    levels
  obtain ⟨place, isQueue⟩ := List.getElem?_eq_some_iff.mp present
  have within : level < queues.length := leave.length_eq ▸ place
  have leaves := (List.forall₂_iff_get.mp leave).2 level place within
  rw [List.get_eq_getElem, List.get_eq_getElem, isQueue] at leaves
  have asked := askedFrom_eq config block controller.queues 0 level present
  have stays : queues[level]? = some queues[level] := List.getElem?_eq_getElem within
  have still := askedFrom_eq config block queues 0 level stays
  rw [Nat.zero_add] at asked still
  have settles := (operateChannels_settles level block reached.channels 0 keptInitiated.plain).of_ok
    operates
  have pushed := foldl_push_queue level operated.2
    { reached with queues, channels := operated.1 } stays
  have holders := (foldl_push operated.2 { reached with queues, channels := operated.1 }).1
  cases ran
  refine ⟨_, pushed, ?_, ?_⟩
  · have plainLeft := leaves.plain plain
    exact ⟨plainLeft.reads, plainLeft.writes⟩
  · have owed : owes config level block
        (operated.2.foldl push { reached with queues, channels := operated.1 }) =
          owedTo level block (holdersFrom config.addressMapping 0 operated.1) := by
      unfold owes MemoryController.holders
      rw [holders]
    have begins : owes config level block
        { controller with currentTime := controller.currentTime + config.clockPeriod } =
          owes config level block controller := rfl
    unfold Cache.Channel.due Cache.Channel.replied at few ⊢
    rw [owed, List.countP_append, replied_pushes, leaves.returned]
    change queues[level].asked (offsetBits config) block + _ + _ = _
    unfold Settles at settles
    unfold owes MemoryController.holders at balance begins few ⊢
    dsimp only at balance begins settles
    omega

/-! ### A memory as the level below a cache -/

/-- The queue of a level is used by the controller and that level alone. -/
def LeavesQueue (level : Nat) (controller : MemoryController) : ControllerStep → Prop
  | .queues queues => queues[level]? = controller.queues[level]?
  | _ => True

instance (level : Nat) (controller : MemoryController) (label : ControllerStep) :
    Decidable (LeavesQueue level controller label) :=
  match label with
  | .queues queues => inferInstanceAs (Decidable (queues[level]? = controller.queues[level]?))
  | .operate => .isTrue trivial
  | .beginPhase _ => .isTrue trivial

/-- What a controller keeps, for the queue of a level too. -/
structure Serving (config : DramConfig) (level : Nat) (controller : MemoryController) : Prop where
  kept : Kept config controller
  plain : ∃ queue, controller.queues[level]? = some queue ∧ queue.Plain

def upper (level : Nat) (controller : MemoryController) : Cache.Channel :=
  (controller.queues[level]?).getD { rqSize := 0, pqSize := 0, wqSize := 0 }

theorem upper_eq (controller : MemoryController) {queue : Cache.Channel}
    (present : controller.queues[level]? = some queue) :
    controller.upper level = queue := by
  unfold upper
  rw [present]
  rfl

theorem holdersFrom_warmup (mapping : AddressMapping) (warmup : Bool)
    (channels : List DramChannel) (number : Nat) :
    holdersFrom mapping number (channels.map (fun channel => { channel with warmup })) =
      holdersFrom mapping number channels := by
  induction channels generalizing number with
  | nil => rfl
  | cons channel rest ih => exact congrArg (held mapping number channel.rq ++ ·) (ih (number + 1))

theorem Serving.step (serving : Serving config level controller) (label : ControllerStep)
    (leaves : LeavesQueue level controller label)
    (few : ∀ block, (controller.upper level).due (offsetBits config) block
      (owes config level block controller) ≤ 1)
    (stepped : (machine config).step controller label = some next) :
    Serving config level next ∧ ∀ block,
      (next.upper level).due (offsetBits config) block (owes config level block next) =
        (controller.upper level).due (offsetBits config) block
          (owes config level block controller) := by
  obtain ⟨queue, present, plain⟩ := serving.plain
  have kept := step_kept serving.kept label stepped
  rw [upper_eq controller present] at few ⊢
  cases label with
  | operate =>
      have ran : controller.operate config = .ok next := by
        change (controller.operate config).toOption = some next at stepped
        cases outcome : controller.operate config with
        | error fault =>
            rw [outcome] at stepped
            cases stepped
        | ok result =>
            rw [outcome] at stepped
            cases stepped
            rfl
      constructor
      · obtain ⟨left, stays, plainLeft, _same⟩ :=
          operate_due serving.kept present plain (few 0) ran
        exact ⟨kept, left, stays, plainLeft⟩
      · intro block
        obtain ⟨left, stays, _plainLeft, same⟩ :=
          operate_due serving.kept present plain (few block) ran
        rw [upper_eq next stays]
        exact same
  | queues queues =>
      change (if queues.length = controller.queues.length then some { controller with queues }
        else none) = some next at stepped
      split at stepped
      case isTrue =>
        cases stepped
        have stays : queues[level]? = some queue := leaves.trans present
        refine ⟨⟨kept, queue, stays, plain⟩, ?_⟩
        intro block
        rw [upper_eq { controller with queues } stays]
        rfl
      case isFalse => cases stepped
  | beginPhase warmup =>
      cases stepped
      refine ⟨⟨kept, queue, present, plain⟩, ?_⟩
      intro block
      rw [upper_eq (controller.beginPhase warmup) present]
      unfold owes MemoryController.holders beginPhase
      rw [holdersFrom_warmup]

/-- A controller serves the caches that use one of its queues. -/
def memoryBelow (config : DramConfig) (level : Nat) (bits : Nat)
    (same : offsetBits config = bits) : Cache.LevelBelow bits where
  State := MemoryController
  Label := ControllerStep
  machine :=
    { step := fun controller label =>
        if LeavesQueue level controller label then (machine config).step controller label
        else none }
  channel := upper level
  connect used controller := { controller with queues := controller.queues.set level used }
  held block controller := owes config level block controller
  Sound := Serving config level
  channel_connect used controller serving := by
    obtain ⟨queue, present, _plain⟩ := serving.plain
    obtain ⟨within, _isQueue⟩ := List.getElem?_eq_some_iff.mp present
    exact upper_eq _ (List.getElem?_set_self within)
  held_connect _used _block _controller := rfl
  sound_connect used controller serving plain := by
    obtain ⟨queue, present, _plain⟩ := serving.plain
    obtain ⟨within, _isQueue⟩ := List.getElem?_eq_some_iff.mp present
    exact ⟨serving.kept.same serving.kept.plain rfl (List.Perm.refl _), used,
      List.getElem?_set_self within, plain⟩
  plain controller serving := by
    obtain ⟨queue, present, plain⟩ := serving.plain
    rw [upper_eq controller present]
    exact plain
  serves controller label next serving few stepped := by
    subst same
    dsimp only at stepped
    split at stepped
    case isTrue leaves => exact serving.step label leaves few stepped
    case isFalse => cases stepped

/-- A controller as it is constructed, with an empty queue for the level. -/
theorem make_serving (config : DramConfig) {queues : List Cache.Channel} {queue : Cache.Channel}
    (rqSize wqSize : Nat) (present : queues[level]? = some queue) (empty : queue.Empty) :
    Serving config level (make config.addressMapping queues rqSize wqSize) ∧
      ∀ block, queue.due (offsetBits config) block
        (owes config level block (make config.addressMapping queues rqSize wqSize)) = 0 := by
  refine ⟨⟨make_kept config queues rqSize wqSize, queue, present, empty.plain⟩, ?_⟩
  intro block
  rw [empty.due]
  have vacant : ∀ number, held config.addressMapping number (List.replicate rqSize none) = [] := by
    intro number
    unfold held
    rw [List.filterMap_replicate_of_none rfl]
    rfl
  have nothing : ∀ size number, owedTo level block (holdersFrom config.addressMapping number
      (List.replicate size (DramChannel.make config.addressMapping rqSize wqSize))) = 0 := by
    intro size
    induction size with
    | zero =>
        intro number
        rfl
    | succ size ih =>
        intro number
        rw [List.replicate_succ]
        unfold holdersFrom
        rw [owedTo_append, ih]
        unfold DramChannel.make
        rw [vacant]
        rfl
  exact nothing _ 0

theorem make_below (config : DramConfig) {queues : List Cache.Channel} {queue : Cache.Channel}
    (rqSize wqSize bits : Nat) (same : offsetBits config = bits)
    (present : queues[level]? = some queue) (empty : queue.Empty) :
    (memoryBelow config level bits same).Sound
        (make config.addressMapping queues rqSize wqSize) ∧
      ∀ block, (memoryBelow config level bits same).due block
        (make config.addressMapping queues rqSize wqSize) = 0 := by
  obtain ⟨serving, quiet⟩ := make_serving config rqSize wqSize present empty
  have isUpper : (make config.addressMapping queues rqSize wqSize).upper level = queue :=
    upper_eq _ present
  subst same
  refine ⟨serving, ?_⟩
  intro block
  rw [← quiet block, ← isUpper]
  rfl

end MemoryController

end ChampSim.Dram

/-
What a memory controller has accepted and what it has pushed.

A read is with an entry of the read queue of its channel until a response for
its block, with its instructions, is pushed to its level. An instruction that
only one read lists is with one entry, or in one response.
-/

import ChampSim.Dram.Controller
import ChampSim.Dram.ReadStages

set_option autoImplicit false

namespace ChampSim.Dram

open Cache (Request Response)
open Custody (Holder Moves)
open Outcome (Ends ends_anything need_value)
open Transition (Machine)

/-! ### The holders of a controller -/

def holdersFrom (mapping : AddressMapping) : Nat → List DramChannel → List (Holder Place)
  | _number, [] => []
  | number, channel :: rest =>
      held mapping number channel.rq ++ holdersFrom mapping (number + 1) rest

theorem holdersFrom_set (mapping : AddressMapping) (channels : List DramChannel) :
    ∀ (number index : Nat), index < channels.length →
      ∃ rest, ∀ stored : DramChannel, (holdersFrom mapping number (channels.set index stored)).Perm
        (held mapping (number + index) stored.rq ++ rest) := by
  induction channels with
  | nil =>
      intro number index within
      cases within
  | cons channel others ih =>
      intro number index within
      cases index with
      | zero => exact ⟨holdersFrom mapping (number + 1) others, fun stored => List.Perm.refl _⟩
      | succ index =>
          obtain ⟨rest, split⟩ := ih (number + 1) index (Nat.lt_of_succ_lt_succ within)
          refine ⟨held mapping number channel.rq ++ rest, ?_⟩
          intro stored
          have inside := (split stored).append_left (held mapping number channel.rq)
          rw [show number + 1 + index = number + (index + 1) by omega] at inside
          refine inside.trans ?_
          rw [← List.append_assoc, ← List.append_assoc]
          exact List.perm_append_comm.append_right rest

theorem holdersFrom_split (mapping : AddressMapping) {channels : List DramChannel} {index : Nat}
    {channel : DramChannel} (present : channels[index]? = some channel) :
    ∃ rest, (holdersFrom mapping 0 channels).Perm (held mapping index channel.rq ++ rest) ∧
      ∀ stored : DramChannel, (holdersFrom mapping 0 (channels.set index stored)).Perm
        (held mapping index stored.rq ++ rest) := by
  obtain ⟨within, isChannel⟩ := List.getElem?_eq_some_iff.mp present
  obtain ⟨rest, split⟩ := holdersFrom_set mapping channels 0 index within
  rw [Nat.zero_add] at split
  have whole := split channel
  rw [← isChannel, List.set_getElem_self within] at whole
  rw [isChannel] at whole
  exact ⟨rest, whole, split⟩

theorem mem_holdersFrom {mapping : AddressMapping} {holder : Holder Place}
    (channels : List DramChannel) : ∀ number, holder ∈ holdersFrom mapping number channels →
      ∃ index channel, channels[index]? = some channel ∧
        holder ∈ held mapping (number + index) channel.rq := by
  induction channels with
  | nil =>
      intro number member
      cases member
  | cons channel others ih =>
      intro number member
      rcases List.mem_append.mp member with here | later
      · exact ⟨0, channel, rfl, here⟩
      · obtain ⟨index, found, present, inFound⟩ := ih (number + 1) later
        refine ⟨index + 1, found, present, ?_⟩
        rw [show number + (index + 1) = number + 1 + index by omega]
        exact inFound

/-! ### Reads and their holders -/

structure AcceptedRead.Fits (config : DramConfig) (read : AcceptedRead) (place : Place) : Prop where
  channel : MemoryController.channelIndex config read.request.address = .ok place.1
  block : config.addressMapping.block read.request.address = place.2

/-- A response for the block of a read that carries all of its instructions. -/
def AcceptedRead.AnsweredBy (config : DramConfig) (read : AcceptedRead) (response : Response) :
    Prop :=
  config.addressMapping.block response.address =
      config.addressMapping.block read.request.address ∧
    ∀ id ∈ read.request.instrDependOnMe, id ∈ response.instrDependOnMe

instance (config : DramConfig) (read : AcceptedRead) (response : Response) :
    Decidable (read.AnsweredBy config response) :=
  inferInstanceAs (Decidable (_ ∧ _))

namespace MemoryController

variable {config : DramConfig} {controller next : MemoryController}

def holders (config : DramConfig) (controller : MemoryController) : List (Holder Place) :=
  holdersFrom config.addressMapping 0 controller.channels

def holding (config : DramConfig) (controller : MemoryController) (instr : Nat) : Nat :=
  (controller.holders config).countP (fun holder => decide (instr ∈ holder.tokens))

def listing (controller : MemoryController) (instr : Nat) : Nat :=
  controller.ledger.countP (fun read => decide (instr ∈ read.request.instrDependOnMe))

/-- Every read that is owed a response has it or has a holder, and no instruction is held or
answered more often than it was listed. -/
structure Kept (config : DramConfig) (controller : MemoryController) : Prop where
  plain : ∀ channel ∈ controller.channels, Plain channel
  owes : ∀ read ∈ controller.ledger, read.request.responseRequested = true →
    (∃ response ∈ read.pushed, read.AnsweredBy config response) ∨
      ∃ holder ∈ controller.holders config,
        Custody.Serves (read.Fits config) read.level read.request.instrDependOnMe holder
  once : ∀ instr, controller.holding config instr ≤ controller.listing instr
  single : ∀ read ∈ controller.ledger, ∀ instr,
    read.pushed.countP (fun response => decide (instr ∈ response.instrDependOnMe)) +
      controller.holding config instr ≤ controller.listing instr

theorem Kept.same (kept : Kept config controller) (plain : ∀ channel ∈ next.channels, Plain channel)
    (ledger : next.ledger = controller.ledger)
    (held : (next.holders config).Perm (controller.holders config)) : Kept config next := by
  have holding : ∀ instr, next.holding config instr = controller.holding config instr :=
    fun instr => held.countP_eq _
  refine ⟨plain, ?_, ?_, ?_⟩
  · intro read member asked
    rw [ledger] at member
    rcases kept.owes read member asked with answered | ⟨holder, isHeld, serving⟩
    · exact Or.inl answered
    · exact Or.inr ⟨holder, held.symm.subset isHeld, serving⟩
  · intro instr
    unfold listing
    rw [holding, ledger]
    exact kept.once instr
  · intro read member instr
    unfold listing
    rw [holding, ledger]
    rw [ledger] at member
    exact kept.single read member instr

/-! ### Requests join -/

theorem addRq_cases (packet : Request) (level : Nat) :
    Ends (fun _ => True) (controller.addRq config packet level) (fun added =>
      ∀ joined, added = some joined → ∃ index channel rq,
        channelIndex config packet.address = .ok index ∧
        controller.channels[index]? = some channel ∧
        DramChannel.addTo channel.rq
          { DramRequest.ofRequest packet with
            forwardChecked := false
            scheduled := false
            readyTime := some controller.currentTime
            toReturn := if packet.responseRequested then [level] else [] } = some rq ∧
        joined = { controller with
          channels := controller.channels.set index { channel with rq }
          ledger := controller.ledger ++ [{ level, request := packet }] }) := by
  unfold addRq
  cases isIndex : channelIndex config packet.address with
  | error fault => exact trivial
  | ok index =>
      apply (need_value trivial _).bind
      intro channel present joined isJoined
      obtain ⟨next, accepted, same⟩ := Option.map_eq_some_iff.mp isJoined
      obtain ⟨rq, isRq, isNext⟩ := Option.map_eq_some_iff.mp accepted
      rw [← isNext] at same
      exact ⟨index, channel, rq, rfl, present, isRq, same.symm⟩

theorem held_join (mapping : AddressMapping) (number : Nat) {queue joined : RequestQueue}
    {entry : DramRequest} (accepted : DramChannel.addTo queue entry = some joined) :
    (held mapping number joined).Perm (entry.holder mapping number :: held mapping number queue) ∧
      ∀ stored, some stored ∈ joined → stored = entry ∨ some stored ∈ queue := by
  obtain ⟨empty, search, same⟩ := Option.map_eq_some_iff.mp accepted
  obtain ⟨placed, isEmpty⟩ := Scan.findIf_some _ _ _ search
  rw [Option.isNone_iff_eq_none] at isEmpty
  obtain ⟨within, isSlot⟩ := List.getElem?_eq_some_iff.mp placed
  obtain ⟨rest, split⟩ := held_set mapping number within
  have before := split none
  rw [← isEmpty, ← isSlot, List.set_getElem_self within, isSlot, isEmpty] at before
  rw [← same]
  refine ⟨(split (some entry)).trans (before.symm.cons _), ?_⟩
  intro stored member
  rcases List.mem_or_eq_of_mem_set member with old | written
  · exact Or.inr old
  · exact Or.inl (Option.some.inj written)

theorem addRq_kept (kept : Kept config controller) (packet : Request) (level : Nat) :
    Ends (fun _ => True) (controller.addRq config packet level)
      (fun added => ∀ joined, added = some joined → Kept config joined) := by
  apply (addRq_cases packet level).mono
  intro added cases joined isJoined
  obtain ⟨index, channel, rq, isIndex, present, accepted, same⟩ := cases joined isJoined
  obtain ⟨rest, before, after⟩ := holdersFrom_split config.addressMapping present
  obtain ⟨enters, entries⟩ := held_join config.addressMapping index accepted
  have whole : (joined.holders config).Perm
      (⟨(index, config.addressMapping.block packet.address),
        if packet.responseRequested then [level] else [], packet.instrDependOnMe⟩ ::
          controller.holders config) := by
    rw [same]
    exact (after _).trans ((enters.append_right rest).trans (before.symm.cons _))
  have holding : ∀ instr, joined.holding config instr = controller.holding config instr +
      if instr ∈ packet.instrDependOnMe then 1 else 0 := by
    intro instr
    have counted := whole.countP_eq (fun holder => decide (instr ∈ holder.tokens))
    rw [List.countP_cons] at counted
    simp only [decide_eq_true_eq] at counted
    exact counted
  have listing : ∀ instr, joined.listing instr = controller.listing instr +
      if instr ∈ packet.instrDependOnMe then 1 else 0 := by
    intro instr
    rw [same]
    unfold MemoryController.listing
    rw [List.countP_append, List.countP_singleton]
    simp only [decide_eq_true_eq]
  have once : ∀ instr, joined.holding config instr ≤ joined.listing instr := by
    intro instr
    rw [holding, listing]
    exact Nat.add_le_add_right (kept.once instr) _
  have isLedger : joined.ledger = controller.ledger ++ [{ level, request := packet }] := by
    rw [same]
  refine ⟨?_, ?_, once, ?_⟩
  · intro other member
    rw [same] at member
    rcases List.mem_or_eq_of_mem_set member with old | written
    · exact kept.plain other old
    · have plain := kept.plain channel (List.mem_of_getElem? present)
      rw [written]
      refine ⟨?_, plain.writes⟩
      intro entry inQueue
      rcases entries entry inQueue with isNew | old
      · rw [isNew]
        dsimp only
        split
        case isTrue => exact List.pairwise_singleton _ _
        case isFalse => exact List.Pairwise.nil
      · exact plain.reads entry old
  · intro read member asked
    rw [isLedger] at member
    rcases List.mem_append.mp member with older | isNew
    · rcases kept.owes read older asked with answered | ⟨holder, isHeld, serving⟩
      · exact Or.inl answered
      · exact Or.inr ⟨holder, whole.symm.subset (List.mem_cons_of_mem _ isHeld), serving⟩
    · rw [List.mem_singleton.mp isNew] at asked ⊢
      refine Or.inr ⟨_, whole.symm.subset List.mem_cons_self, ⟨isIndex, rfl⟩, ?_,
        fun _token listed => listed⟩
      dsimp only at asked ⊢
      rw [if_pos asked]
      exact List.mem_singleton.mpr rfl
  · intro read member instr
    rw [isLedger] at member
    rcases List.mem_append.mp member with older | isNew
    · have before := kept.single read older instr
      rw [holding, listing]
      omega
    · rw [List.mem_singleton.mp isNew, List.countP_nil, Nat.zero_add]
      exact once instr

theorem addWq_kept (kept : Kept config controller) (packet : Request) :
    Ends (fun _ => True) (controller.addWq config packet)
      (fun added => ∀ joined, added = some joined → Kept config joined) := by
  unfold addWq
  apply (ends_anything _).bind
  intro index _trivial
  apply (need_value trivial _).bind
  intro channel present joined isJoined
  obtain ⟨next, accepted, same⟩ := Option.map_eq_some_iff.mp isJoined
  obtain ⟨wq, isWq, isNext⟩ := Option.map_eq_some_iff.mp accepted
  obtain ⟨_enters, entries⟩ := held_join config.addressMapping index isWq
  obtain ⟨rest, before, after⟩ := holdersFrom_split config.addressMapping present
  rw [← same, ← isNext]
  refine kept.same ?_ rfl ((after _).trans before.symm)
  intro other member
  rcases List.mem_or_eq_of_mem_set member with old | written
  · exact kept.plain other old
  · have plain := kept.plain channel (List.mem_of_getElem? present)
    rw [written]
    refine ⟨plain.reads, ?_⟩
    intro entry inQueue
    rcases entries entry inQueue with isNew | old
    · rw [isNew]
      rfl
    · exact plain.writes entry old

theorem addSpan_kept
    {add : MemoryController → Request → Except Fault (Option MemoryController)}
    (each : ∀ state packet, Kept config state → Ends (fun _ => True) (add state packet)
      (fun added => ∀ joined, added = some joined → Kept config joined))
    (packets : List Request) (controller : MemoryController) (kept : Kept config controller) :
    Ends (fun _ => True) (addSpan add controller packets) (fun added => Kept config added.2) := by
  induction packets generalizing controller with
  | nil => exact kept
  | cons packet rest ih =>
      unfold addSpan
      apply (each controller packet kept).bind
      intro added joins
      cases added with
      | none => exact kept
      | some joined => exact ih joined (joins joined rfl)

theorem initiateLevel_kept (kept : Kept config controller) (level : Nat) (queue : Cache.Channel) :
    Ends (fun _ => True) (initiateLevel config controller level queue)
      (fun initiated => Kept config initiated.2) := by
  have reads := fun (state : MemoryController) packet (still : Kept config state) =>
    addRq_kept still packet level
  have writes := fun (state : MemoryController) packet (still : Kept config state) =>
    addWq_kept still packet
  unfold initiateLevel
  apply (addSpan_kept reads queue.rq controller kept).bind
  intro first keptFirst
  apply (addSpan_kept reads queue.pq first.2 keptFirst).bind
  intro second keptSecond
  apply (addSpan_kept writes queue.wq second.2 keptSecond).bind
  intro last keptLast
  exact keptLast

theorem initiateLevels_kept (queues : List Cache.Channel) (level : Nat)
    (controller : MemoryController) (kept : Kept config controller) :
    Ends (fun _ => True) (initiateLevels config level queues controller)
      (fun initiated => Kept config initiated.2) := by
  induction queues generalizing level controller with
  | nil => exact kept
  | cons queue rest ih =>
      unfold initiateLevels
      apply (initiateLevel_kept kept level queue).bind
      intro initiated keptInitiated
      apply (ih (level + 1) initiated.2 keptInitiated).bind
      intro others keptOthers
      exact keptOthers

theorem initiateRequests_kept (kept : Kept config controller) :
    Ends (fun _ => True) (controller.initiateRequests config) (Kept config) := by
  unfold initiateRequests
  apply (initiateLevels_kept controller.queues 0 controller kept).bind
  intro initiated still
  exact still.same still.plain rfl (List.Perm.refl _)

/-! ### The channels operate -/

theorem operateChannels_delivers (channels : List DramChannel) (number : Nat)
    (plain : ∀ channel ∈ channels, Plain channel) :
    Ends (fun _ => True) (operateChannels config channels) (fun operated =>
      (∀ channel ∈ operated.1, Plain channel) ∧
        Delivers config.addressMapping (holdersFrom config.addressMapping number channels)
          operated.2 (holdersFrom config.addressMapping number operated.1)) := by
  induction channels generalizing number with
  | nil => exact ⟨plain, Delivers.same rfl⟩
  | cons channel rest ih =>
      unfold operateChannels
      apply (DramChannel.operate_serves config number
        (plain channel List.mem_cons_self)).bind
      intro operated ⟨plainFirst, first⟩
      apply (ih (number + 1) (fun other later => plain other (List.mem_cons_of_mem _ later))).bind
      intro others ⟨plainOthers, second⟩
      constructor
      · intro other member
        rcases List.mem_cons.mp member with isFirst | later
        · rw [isFirst]
          exact plainFirst
        · exact plainOthers other later
      · exact (first.frame _).trans (second.framed _)

theorem foldl_note (pushes : List (Nat × Response)) (read : AcceptedRead) :
    pushes.foldl AcceptedRead.note read =
      { read with pushed := read.pushed ++
        (pushes.filter (fun sent => decide (sent.1 = read.level))).map Prod.snd } := by
  induction pushes generalizing read with
  | nil => simp
  | cons sent rest ih =>
      rw [List.foldl_cons, ih]
      unfold AcceptedRead.note
      by_cases same : sent.1 = read.level
      · simp [same]
      · simp [same]

theorem foldl_push (pushes : List (Nat × Response)) (controller : MemoryController) :
    (pushes.foldl push controller).channels = controller.channels ∧
      (pushes.foldl push controller).ledger =
        controller.ledger.map (fun read => pushes.foldl AcceptedRead.note read) := by
  induction pushes generalizing controller with
  | nil => exact ⟨rfl, (List.map_id _).symm⟩
  | cons sent rest ih =>
      obtain ⟨channels, ledger⟩ := ih (controller.push sent)
      rw [List.foldl_cons]
      refine ⟨channels, ledger.trans ?_⟩
      unfold push
      rw [List.map_map]
      rfl

/-- An instruction is pushed on the queue of a level at most once with each of its answers. -/
theorem pushes_countP_le {mapping : AddressMapping} (level instr : Nat)
    (answers : List (Holder Place × Response))
    (replies : ∀ answer ∈ answers, Replies mapping answer.2 answer.1) :
    (((answers.flatMap pushesOf).filter (fun sent => decide (sent.1 = level))).map Prod.snd).countP
        (fun response => decide (instr ∈ response.instrDependOnMe)) ≤
      answers.countP (fun answer => decide (instr ∈ answer.1.tokens)) := by
  induction answers with
  | nil => exact Nat.le_refl 0
  | cons answer rest ih =>
      have others := ih (fun other later => replies other (List.mem_cons_of_mem _ later))
      obtain ⟨_block, tokens, increases⟩ := replies answer List.mem_cons_self
      have distinct : answer.1.toReturn.Nodup := increases.imp (fun less => Nat.ne_of_lt less)
      have once := List.nodup_iff_count_le_one.mp distinct level
      have mine : (((pushesOf answer).filter (fun sent => decide (sent.1 = level))).map
          Prod.snd).countP (fun response => decide (instr ∈ response.instrDependOnMe)) ≤
          if instr ∈ answer.1.tokens then 1 else 0 := by
        unfold pushesOf
        rw [List.filter_map, List.map_map, List.countP_map]
        split
        case isTrue =>
          have filtered : (answer.1.toReturn.filter
              (fun other => decide (other = level))).length ≤ 1 := by
            rw [← List.countP_eq_length_filter]
            exact once
          exact List.countP_le_length.trans filtered
        case isFalse absent =>
          apply Nat.le_of_eq
          apply List.countP_eq_zero.mpr
          intro other _member listed
          have inResponse : instr ∈ answer.2.instrDependOnMe := of_decide_eq_true listed
          rw [tokens] at inResponse
          exact absent inResponse
      rw [List.flatMap_cons, List.filter_append, List.map_append, List.countP_append,
        List.countP_cons]
      simp only [decide_eq_true_eq]
      omega

/-- Handing the reads over, and pushing the answers, keeps the ledger. -/
theorem Kept.deliver (kept : Kept config controller) {channels : List DramChannel}
    {pushes : List (Nat × Response)} (plain : ∀ channel ∈ channels, Plain channel)
    (delivers : Delivers config.addressMapping (controller.holders config) pushes
      (holdersFrom config.addressMapping 0 channels)) :
    Kept config (pushes.foldl push { controller with channels }) := by
  obtain ⟨answers, moves, isPushes⟩ := delivers
  obtain ⟨sameChannels, ledger⟩ := foldl_push pushes { controller with channels }
  have isHolders : (pushes.foldl push { controller with channels }).holders config =
      holdersFrom config.addressMapping 0 channels :=
    congrArg (holdersFrom config.addressMapping 0) sameChannels
  have listing : ∀ instr, (pushes.foldl push { controller with channels }).listing instr =
      controller.listing instr := by
    intro instr
    unfold MemoryController.listing
    rw [ledger, List.countP_map]
    apply List.countP_congr
    intro read _member
    rw [Function.comp_apply, foldl_note]
  have handed : ∀ instr, (pushes.foldl push { controller with channels }).holding config instr +
      answers.countP (fun answer => decide (instr ∈ answer.1.tokens)) ≤
        controller.holding config instr := by
    intro instr
    unfold holding
    rw [isHolders]
    exact moves.countP_answers_le instr
  refine ⟨?_, ?_, ?_, ?_⟩
  · rw [sameChannels]
    exact plain
  · intro read member asked
    rw [ledger] at member
    obtain ⟨old, inLedger, isRead⟩ := List.mem_map.mp member
    rw [foldl_note] at isRead
    rw [← isRead] at asked ⊢
    rcases kept.owes old inLedger asked with ⟨response, before, answered⟩ | served
    · exact Or.inl ⟨response, List.mem_append_left _ before, answered⟩
    · rcases moves.serves (old.Fits config) (fun _place _other never _fits => never.elim)
        old.level old.request.instrDependOnMe served with still | ⟨answer, given, serving, reply⟩
      · rw [isHolders]
        obtain ⟨holder, isHeld, serving⟩ := still
        exact Or.inr ⟨holder, isHeld, ⟨⟨serving.fits.channel, serving.fits.block⟩,
          serving.toReturn, serving.tokens⟩⟩
      · refine Or.inl ⟨answer.2, List.mem_append_right _ ?_, ?_, ?_⟩
        · apply List.mem_map.mpr
          refine ⟨(old.level, answer.2), List.mem_filter.mpr ⟨?_, decide_eq_true rfl⟩, rfl⟩
          rw [isPushes]
          exact List.mem_flatMap.mpr ⟨answer, given, List.mem_map.mpr
            ⟨old.level, serving.toReturn, rfl⟩⟩
        · exact reply.block.trans serving.fits.block.symm
        · intro id listed
          rw [reply.tokens]
          exact serving.tokens id listed
  · intro instr
    rw [listing]
    exact ((Nat.le_add_right _ _).trans (handed instr)).trans (kept.once instr)
  · intro read member instr
    rw [ledger] at member
    obtain ⟨old, inLedger, isRead⟩ := List.mem_map.mp member
    rw [foldl_note] at isRead
    have before := kept.single old inLedger instr
    have pushed := pushes_countP_le old.level instr answers moves.replies
    rw [← isPushes] at pushed
    have fewer := handed instr
    rw [listing, ← isRead, List.countP_append]
    omega

theorem operate_kept (kept : Kept config controller) :
    Ends (fun _ => True) (controller.operate config) (Kept config) := by
  have begun : Kept config
      { controller with currentTime := controller.currentTime + config.clockPeriod } :=
    kept.same kept.plain rfl (List.Perm.refl _)
  unfold operate
  apply (initiateRequests_kept begun).bind
  intro initiated keptInitiated
  apply (operateChannels_delivers initiated.channels 0 keptInitiated.plain).bind
  intro operated ⟨plain, delivers⟩
  exact keptInitiated.deliver plain delivers

/-! ### Every run -/

theorem make_kept (config : DramConfig) (queues : List Cache.Channel) (rqSize wqSize : Nat) :
    Kept config (make config.addressMapping queues rqSize wqSize) := by
  have vacant : ∀ size (entry : DramRequest), some entry ∉ List.replicate size none := by
    intro size entry member
    cases List.eq_of_mem_replicate member
  have nothing : ∀ size number, held config.addressMapping number (List.replicate size none) = [] := by
    intro size number
    unfold held
    rw [List.filterMap_replicate_of_none rfl]
    rfl
  have holders : ∀ size number, holdersFrom config.addressMapping number
      (List.replicate size (DramChannel.make config.addressMapping rqSize wqSize)) = [] := by
    intro size
    induction size with
    | zero =>
        intro number
        rfl
    | succ size ih =>
        intro number
        rw [List.replicate_succ]
        unfold holdersFrom
        rw [ih]
        exact (List.append_nil _).trans (nothing rqSize number)
  have holding : ∀ instr,
      (make config.addressMapping queues rqSize wqSize).holding config instr = 0 := by
    intro instr
    unfold holding MemoryController.holders make
    rw [holders]
    rfl
  refine ⟨?_, ?_, ?_, ?_⟩
  · intro channel member
    rw [List.eq_of_mem_replicate member]
    exact ⟨fun entry inQueue => absurd inQueue (vacant rqSize entry),
      fun entry inQueue => absurd inQueue (vacant wqSize entry)⟩
  · intro read member
    cases member
  · intro instr
    rw [holding]
    exact Nat.zero_le _
  · intro read member
    cases member

theorem step_kept (kept : Kept config controller) (label : ControllerStep)
    (stepped : (machine config).step controller label = some next) : Kept config next := by
  cases label with
  | operate =>
      have ends := operate_kept kept
      change (controller.operate config).toOption = some next at stepped
      cases outcome : controller.operate config with
      | error fault =>
          rw [outcome] at stepped
          cases stepped
      | ok result =>
          rw [outcome] at stepped ends
          cases stepped
          exact ends
  | queues queues =>
      change (if queues.length = controller.queues.length then some { controller with queues }
        else none) = some next at stepped
      split at stepped
      case isTrue =>
        cases stepped
        exact kept.same kept.plain rfl (List.Perm.refl _)
      case isFalse => cases stepped
  | beginPhase warmup =>
      cases stepped
      have holders : ∀ (channels : List DramChannel) number,
          holdersFrom config.addressMapping number
            (channels.map (fun channel => { channel with warmup })) =
          holdersFrom config.addressMapping number channels := by
        intro channels
        induction channels with
        | nil =>
            intro number
            rfl
        | cons channel rest ih =>
            intro number
            exact congrArg (held config.addressMapping number channel.rq ++ ·) (ih (number + 1))
      refine kept.same ?_ rfl (List.Perm.of_eq (holders controller.channels 0))
      intro channel member
      obtain ⟨old, inChannels, same⟩ := List.mem_map.mp member
      rw [← same]
      have plain := kept.plain old inChannels
      exact ⟨plain.reads, plain.writes⟩

theorem run_kept (queues : List Cache.Channel) (rqSize wqSize : Nat) (steps : List ControllerStep)
    (ran : (machine config).run (make config.addressMapping queues rqSize wqSize) steps =
      some controller) : Kept config controller :=
  (machine config).run_invariant (Kept config)
    (fun _state label _next kept stepped => step_kept kept label stepped) steps _ controller
    (make_kept config queues rqSize wqSize) ran

end MemoryController

end ChampSim.Dram

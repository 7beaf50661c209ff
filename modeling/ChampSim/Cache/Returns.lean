/-
The order in which a cache fills what is returned to it.

The registers whose data is back come first, in the order of their returns, and
the others wait, one for every answer that is still due. The level below is
assumed to answer each request that asks for a response once.
-/

import ChampSim.Cache.Cycle

set_option autoImplicit false

namespace ChampSim.Cache

open Transition

def Mshr.block (config : Config) (entry : Mshr) : BitVec 64 := config.blockNumber entry.address

theorem Mshr.merge_block (config : Config) (predecessor successor : Mshr)
    (same : predecessor.block config = successor.block config) :
    (predecessor.merge successor).block config = predecessor.block config := by
  unfold Mshr.block at same ⊢
  rw [Mshr.merge_address, apply_ite config.blockNumber, ← same, ite_self]

def Mshr.hasReturned (entry : Mshr) : Bool := !entry.dataPromise.hasUnknownReadiness

/-- An entry with the data of a packet, usable from a cycle on. -/
def Mshr.finish (entry : Mshr) (packet : Response) (cycle : Nat) : Mshr :=
  { entry with
    dataPromise :=
      { value := { data := packet.data, pfMetadata := packet.pfMetadata }
        eventCycle := some cycle } }

def CycleBefore (earlier later : Option Nat) : Prop :=
  ∀ first second, earlier = some first → later = some second → first ≤ second

def ReadyBefore (earlier later : Mshr) : Prop :=
  CycleBefore earlier.dataPromise.eventCycle later.dataPromise.eventCycle

/-- `returned` and then `waiting`, where `expected` names the answers due. -/
structure Awaits {config : Config} {Module : Type} (state : State config Module)
    (expected : List (BitVec 64)) (returned waiting : List Mshr) : Prop where
  split : state.mshr = returned ++ waiting
  bounded : state.mshr.length ≤ config.mshrSize
  distinct : (state.mshr.map (Mshr.block config)).Nodup
  ready : ∀ entry ∈ returned, ∃ cycle, entry.dataPromise.eventCycle = some cycle ∧
    cycle ≤ state.currentTime + (if state.warmup then 0 else config.fillLatency)
  ordered : returned.Pairwise ReadyBefore
  unknown : ∀ entry ∈ waiting, entry.dataPromise.eventCycle = none
  expects : (waiting.map (Mshr.block config)).Perm expected

/-- Whatever `Awaits` speaks of is the same in both states. -/
structure SameReturns {config : Config} {Module : Type} (state next : State config Module) :
    Prop where
  mshr : next.mshr = state.mshr
  currentTime : next.currentTime = state.currentTime
  warmup : next.warmup = state.warmup

namespace SameReturns

variable {config : Config} {Module : Type} {state next last : State config Module}

theorem refl (state : State config Module) : SameReturns state state := ⟨rfl, rfl, rfl⟩

theorem trans (first : SameReturns state next) (second : SameReturns next last) :
    SameReturns state last :=
  ⟨second.mshr.trans first.mshr, second.currentTime.trans first.currentTime,
    second.warmup.trans first.warmup⟩

end SameReturns

namespace Awaits

variable {config : Config} {Module : Type} {state next : State config Module}
  {expected : List (BitVec 64)} {returned waiting : List Mshr}

theorem same (awaits : Awaits state expected returned waiting) (kept : SameReturns state next) :
    Awaits next expected returned waiting := by
  constructor
  · rw [kept.mshr]
    exact awaits.split
  · rw [kept.mshr]
    exact awaits.bounded
  · rw [kept.mshr]
    exact awaits.distinct
  · rw [kept.currentTime, kept.warmup]
    exact awaits.ready
  · exact awaits.ordered
  · exact awaits.unknown
  · exact awaits.expects

theorem reorder (awaits : Awaits state expected returned waiting) {others : List (BitVec 64)}
    (same : expected.Perm others) : Awaits state others returned waiting :=
  { awaits with expects := awaits.expects.trans same }

/-! ### Returned packets -/

/-- The register that a due packet finds, which is the only one of its block. -/
theorem finds (awaits : Awaits state expected returned waiting) (block : BitVec 64)
    (due : block ∈ expected) :
    ∃ before entry after, waiting = before ++ entry :: after ∧ entry.block config = block ∧
      ∀ other ∈ returned ++ before, other.block config ≠ block := by
  obtain ⟨entry, member, same⟩ := List.mem_map.mp (awaits.expects.mem_iff.mpr due)
  obtain ⟨before, after, split⟩ := List.append_of_mem member
  refine ⟨before, entry, after, split, same, ?_⟩
  have distinct := awaits.distinct
  rw [awaits.split, split, ← List.append_assoc, List.map_append, List.nodup_append] at distinct
  intro other present equal
  exact distinct.2.2 block (equal ▸ List.mem_map_of_mem present) block
    (same ▸ List.mem_map_of_mem List.mem_cons_self) rfl

/-- What `finish_packet` leaves of the registers: `finished` after the others
that have returned, and the first that waits in its place. -/
theorem finishPacket_mshr (awaits : Awaits state expected returned waiting) (packet : Response)
    (before after : List Mshr) (entry : Mshr) (split : waiting = before ++ entry :: after)
    (same : entry.block config = config.blockNumber packet.address)
    (others : ∀ other ∈ returned ++ before,
      other.block config ≠ config.blockNumber packet.address) :
    ∃ finished rest, state.finishPacket packet = some (state.withMshr (returned ++ finished :: rest)) ∧
      (entry :: rest).Perm waiting ∧ finished.block config = entry.block config ∧
      finished.dataPromise.eventCycle =
        some (state.currentTime + (if state.warmup then 0 else config.fillLatency)) := by
  have whole : state.mshr = (returned ++ before) ++ entry :: after := by
    rw [awaits.split, split, List.append_assoc]
  have index : state.mshrIndex packet.address = (returned ++ before).length := by
    unfold State.mshrIndex
    rw [whole]
    apply Positions.findIdx_split
    · intro other member
      exact decide_eq_false (others other member)
    · exact decide_eq_true same
  have allReturned : ∀ other ∈ returned, other.dataPromise.hasUnknownReadiness = false := by
    intro other member
    obtain ⟨cycle, known, _bounded⟩ := awaits.ready other member
    rw [Waitable.hasUnknownReadiness, known]
    rfl
  have firstUnreturned : ∀ first rest, waiting = first :: rest →
      state.mshr.findIdx (fun other => other.dataPromise.hasUnknownReadiness) =
        returned.length := by
    intro first rest shape
    rw [awaits.split, shape]
    apply Positions.findIdx_split _ _ _ _ allReturned
    rw [Waitable.hasUnknownReadiness,
      awaits.unknown first (shape ▸ List.mem_cons_self), Option.isNone_none]
  have found : state.mshr[(returned ++ before).length]? = some entry := by
    rw [whole]
    simp
  unfold State.finishPacket
  dsimp only
  rw [index, found]
  cases before with
  | nil =>
      have shape : waiting = entry :: after := split
      refine ⟨entry.finish packet _, after, ?_, ?_, rfl, rfl⟩
      · rw [firstUnreturned entry after shape, whole, List.append_nil]
        dsimp only
        rw [List.set_append_right _ _ (Nat.le_refl _), Nat.sub_self, List.set_cons_zero,
          Positions.swapAt_self]
        rfl
      · rw [shape]
  | cons first middle =>
      have shape : waiting = first :: (middle ++ entry :: after) := split
      refine ⟨entry.finish packet _, middle ++ first :: after, ?_, ?_, rfl, rfl⟩
      · rw [firstUnreturned first _ shape, whole]
        dsimp only
        rw [List.set_append_right _ _ (Nat.le_refl _), Nat.sub_self, List.set_cons_zero,
          Positions.swapAt_split]
        rfl
      · rw [shape]
        have moved : (entry :: (middle ++ first :: after)).Perm
            (entry :: first :: (middle ++ after)) := List.perm_middle.cons entry
        have swapped : (entry :: first :: (middle ++ after)).Perm
            (first :: entry :: (middle ++ after)) := List.Perm.swap first entry _
        exact moved.trans (swapped.trans (List.perm_middle.symm.cons first))

theorem finish (awaits : Awaits state expected returned waiting) (packet : Response)
    (due : config.blockNumber packet.address ∈ expected) :
    ∃ finished rest, state.finishPacket packet = some (state.withMshr (returned ++ finished :: rest)) ∧
      finished.block config = config.blockNumber packet.address ∧
      Awaits (state.withMshr (returned ++ finished :: rest))
        (expected.erase (config.blockNumber packet.address)) (returned ++ [finished]) rest := by
  obtain ⟨before, entry, after, split, same, others⟩ := awaits.finds _ due
  obtain ⟨finished, rest, ran, moved, block, cycle⟩ :=
    awaits.finishPacket_mshr packet before after entry split same others
  have blocks : ((returned ++ finished :: rest).map (Mshr.block config)).Perm
      (state.mshr.map (Mshr.block config)) := by
    rw [awaits.split, List.map_append, List.map_append, List.map_cons, block]
    exact (moved.map (Mshr.block config)).append_left _
  refine ⟨finished, rest, ran, block.trans same, ?_⟩
  constructor
  · rw [List.append_assoc]
    rfl
  · have lengths := blocks.length_eq
    rw [List.length_map, List.length_map] at lengths
    exact lengths ▸ awaits.bounded
  · exact blocks.nodup_iff.mpr awaits.distinct
  · intro other member
    rcases List.mem_append.mp member with older | newest
    · exact awaits.ready other older
    · rw [List.mem_singleton.mp newest]
      exact ⟨_, cycle, Nat.le_refl _⟩
  · rw [List.pairwise_append]
    refine ⟨awaits.ordered, List.pairwise_singleton _ _, ?_⟩
    intro earlier older later newest first second known ready
    rw [List.mem_singleton.mp newest, cycle] at ready
    cases ready
    obtain ⟨bounded, still, atMost⟩ := awaits.ready earlier older
    cases known.symm.trans still
    exact atMost
  · intro other member
    exact awaits.unknown other (moved.mem_iff.mp (List.mem_cons_of_mem entry member))
  · have waits := (moved.map (Mshr.block config)).trans awaits.expects
    rw [List.map_cons, same] at waits
    exact List.perm_cons_erase due |>.symm.trans waits.symm |>.cons_inv.symm

theorem finishEach (awaits : Awaits state expected returned waiting)
    (outstanding : List (BitVec 64)) (packets : List Response)
    (due : expected.Perm
      (outstanding ++ packets.map (fun packet => config.blockNumber packet.address))) :
    ∃ finished rest, packets.foldlM State.finishPacket state =
        some (state.withMshr (returned ++ finished ++ rest)) ∧
      finished.map (Mshr.block config) =
        packets.map (fun packet => config.blockNumber packet.address) ∧
      Awaits (state.withMshr (returned ++ finished ++ rest)) outstanding (returned ++ finished)
        rest := by
  induction packets generalizing state expected returned waiting with
  | nil =>
      have kept := awaits.reorder due
      rw [List.map_nil, List.append_nil] at kept
      refine ⟨[], waiting, ?_, rfl, ?_⟩
      · rw [List.append_nil, ← awaits.split]
        rfl
      · rw [List.append_nil, ← awaits.split]
        exact kept
  | cons packet rest ih =>
      have member : config.blockNumber packet.address ∈ expected :=
        due.mem_iff.mpr (List.mem_append_right _ List.mem_cons_self)
      obtain ⟨first, others, ran, block, next⟩ := awaits.finish packet member
      have remaining := (due.trans List.perm_middle).erase (config.blockNumber packet.address)
      rw [List.erase_cons_head] at remaining
      obtain ⟨finished, last, ranRest, blocks, reached⟩ := ih next remaining
      refine ⟨first :: finished, last, ?_, ?_, ?_⟩
      · rw [List.foldlM_cons, ran]
        have same := ranRest
        rw [List.append_assoc returned] at same
        exact same
      · rw [List.map_cons, List.map_cons, block, blocks]
      · rw [List.append_assoc returned] at reached
        exact reached

/-! ### Misses and fills -/

/-- The same blocks become ready at the same cycles, in the same order. -/
theorem resemble (awaits : Awaits state expected returned waiting)
    (time : next.currentTime = state.currentTime) (warm : next.warmup = state.warmup)
    (blocks : next.mshr.map (Mshr.block config) = state.mshr.map (Mshr.block config))
    (cycles : next.mshr.map (fun entry => entry.dataPromise.eventCycle) =
      state.mshr.map (fun entry => entry.dataPromise.eventCycle)) :
    ∃ returned waiting, Awaits next expected returned waiting := by
  have front : (next.mshr.take returned.length).map (fun entry => entry.dataPromise.eventCycle) =
      returned.map (fun entry => entry.dataPromise.eventCycle) := by
    rw [List.map_take, cycles, ← List.map_take, awaits.split, List.take_left]
  have back : (next.mshr.drop returned.length).map (fun entry => entry.dataPromise.eventCycle) =
      waiting.map (fun entry => entry.dataPromise.eventCycle) := by
    rw [List.map_drop, cycles, ← List.map_drop, awaits.split, List.drop_left]
  refine ⟨next.mshr.take returned.length, next.mshr.drop returned.length, ?_⟩
  constructor
  · exact (List.take_append_drop _ _).symm
  · have lengths := congrArg List.length blocks
    rw [List.length_map, List.length_map] at lengths
    exact lengths ▸ awaits.bounded
  · exact blocks ▸ awaits.distinct
  · intro entry member
    have present := List.mem_map_of_mem (f := fun entry => entry.dataPromise.eventCycle) member
    rw [front] at present
    obtain ⟨other, older, same⟩ := List.mem_map.mp present
    rw [time, warm, ← same]
    exact awaits.ready other older
  · have ordered : (returned.map (fun entry => entry.dataPromise.eventCycle)).Pairwise
        CycleBefore := List.pairwise_map.mpr awaits.ordered
    rw [← front] at ordered
    have entries : (next.mshr.take returned.length).Pairwise (fun earlier later =>
        CycleBefore earlier.dataPromise.eventCycle later.dataPromise.eventCycle) :=
      List.pairwise_map.mp ordered
    exact entries
  · intro entry member
    have present := List.mem_map_of_mem (f := fun entry => entry.dataPromise.eventCycle) member
    rw [back] at present
    obtain ⟨other, older, same⟩ := List.mem_map.mp present
    exact same ▸ awaits.unknown other older
  · rw [List.map_drop, blocks, ← List.map_drop, awaits.split, List.drop_left]
    exact awaits.expects

theorem fill (awaits : Awaits state expected returned waiting) (count : Nat)
    (within : count ≤ returned.length) (mshr : next.mshr = state.mshr.drop count)
    (time : next.currentTime = state.currentTime) (warm : next.warmup = state.warmup) :
    Awaits next expected (returned.drop count) waiting := by
  have split : next.mshr = returned.drop count ++ waiting := by
    rw [mshr, awaits.split, List.drop_append_of_le_length within]
  constructor
  · exact split
  · rw [mshr, List.length_drop]
    exact Nat.le_trans (Nat.sub_le _ _) awaits.bounded
  · rw [mshr]
    exact awaits.distinct.sublist ((List.drop_sublist count _).map _)
  · intro entry member
    rw [time, warm]
    exact awaits.ready entry (List.mem_of_mem_drop member)
  · exact awaits.ordered.sublist (List.drop_sublist count _)
  · exact awaits.unknown
  · exact awaits.expects

end Awaits

/-- The level below has taken the packets of `reads` and `prefetches`; `blocks`
are those that a response is asked for. -/
def Requested (config : Config) (before after : Channel) (blocks : List (BitVec 64)) : Prop :=
  ∃ reads prefetches, after.rq = before.rq ++ reads ∧ after.pq = before.pq ++ prefetches ∧
    after.returned = before.returned ∧
    blocks.Perm (((reads ++ prefetches).filter (fun request => request.responseRequested)).map
      (fun request => config.blockNumber request.address))

namespace Requested

variable {config : Config} {before middle after : Channel} {blocks others : List (BitVec 64)}

theorem none (rq : after.rq = before.rq) (pq : after.pq = before.pq)
    (returned : after.returned = before.returned) : Requested config before after [] :=
  ⟨[], [], by rw [rq, List.append_nil], by rw [pq, List.append_nil], returned, List.Perm.refl []⟩

theorem trans (first : Requested config before middle blocks)
    (second : Requested config middle after others) :
    Requested config before after (blocks ++ others) := by
  obtain ⟨reads, prefetches, rq, pq, returned, named⟩ := first
  obtain ⟨laterReads, laterPrefetches, laterRq, laterPq, laterReturned, laterNamed⟩ := second
  refine ⟨reads ++ laterReads, prefetches ++ laterPrefetches, ?_, ?_, ?_, ?_⟩
  · rw [laterRq, rq, List.append_assoc]
  · rw [laterPq, pq, List.append_assoc]
  · rw [laterReturned, returned]
  · have moved : ((reads ++ prefetches) ++ (laterReads ++ laterPrefetches)).Perm
        ((reads ++ laterReads) ++ (prefetches ++ laterPrefetches)) := by
      rw [List.append_assoc, List.append_assoc]
      apply List.Perm.append_left
      rw [← List.append_assoc, ← List.append_assoc]
      exact List.perm_append_comm.append_right _
    have both := named.append laterNamed
    rw [← List.map_append, ← List.filter_append] at both
    exact both.trans ((moved.filter _).map _)

end Requested

theorem doAddQueue_appends {queue next : List Request} {size : Nat} {packet : Request}
    (added : doAddQueue queue size packet = some next) :
    next = queue ++ [{ packet with forwardChecked := false }] := by
  unfold doAddQueue at added
  split at added
  · cases added
  · cases added
    rfl

theorem addRq_appends {channel next : Channel} {packet : Request}
    (added : channel.addRq packet = some next) :
    next = { channel with rq := channel.rq ++ [{ packet with forwardChecked := false }] } := by
  obtain ⟨queue, room, same⟩ := Option.map_eq_some_iff.mp added
  rw [← same, doAddQueue_appends room]

theorem addPq_appends {channel next : Channel} {packet : Request}
    (added : channel.addPq packet = some next) :
    next = { channel with pq := channel.pq ++ [{ packet with forwardChecked := false }] } := by
  obtain ⟨queue, room, same⟩ := Option.map_eq_some_iff.mp added
  rw [← same, doAddQueue_appends room]

theorem addWq_appends {channel next : Channel} {packet : Request}
    (added : channel.addWq packet = some next) :
    next = { channel with wq := channel.wq ++ [{ packet with forwardChecked := false }] } := by
  obtain ⟨queue, room, same⟩ := Option.map_eq_some_iff.mp added
  rw [← same, doAddQueue_appends room]

section Steps

variable {config : Config} {Module : Type} {state next : State config Module}
  {expected : List (BitVec 64)} {returned waiting : List Mshr}

theorem forwardPacket_asks (state : State config Module) (handlePkt : TagLookup) :
    (if asksResponse handlePkt then [config.blockNumber handlePkt.address] else []).Perm
      (([{ (state.mshrAndForwardPacket handlePkt).2 with forwardChecked := false }].filter
        (fun request => request.responseRequested)).map
          (fun request => config.blockNumber request.address)) := by
  have same : (state.mshrAndForwardPacket handlePkt).2.responseRequested =
      asksResponse handlePkt := rfl
  cases asked : asksResponse handlePkt with
  | false =>
      rw [List.filter_cons_of_neg (by rw [same, asked]; exact Bool.false_ne_true)]
      exact List.Perm.refl []
  | true =>
      rw [List.filter_cons_of_pos (by exact same.trans asked)]
      exact List.Perm.refl _

theorem sendMiss_requested (handlePkt : TagLookup) (lowerLevel : Channel)
    (sent : state.sendMiss handlePkt = some lowerLevel) :
    Requested config state.lowerLevel lowerLevel
      (if asksResponse handlePkt then [config.blockNumber handlePkt.address] else []) := by
  unfold State.sendMiss at sent
  split at sent
  · have appended := addRq_appends sent
    subst appended
    refine ⟨[{ (state.mshrAndForwardPacket handlePkt).2 with forwardChecked := false }], [], rfl, ?_,
      rfl, ?_⟩
    · exact (List.append_nil _).symm
    · rw [List.append_nil]
      exact forwardPacket_asks state handlePkt
  · have appended := addPq_appends sent
    subst appended
    refine ⟨[], [{ (state.mshrAndForwardPacket handlePkt).2 with forwardChecked := false }], ?_, rfl,
      rfl, ?_⟩
    · exact (List.append_nil _).symm
    · exact forwardPacket_asks state handlePkt

theorem Awaits.miss (awaits : Awaits state expected returned waiting) (handlePkt : TagLookup)
    (accepted : Bool) (step : MissStep state handlePkt accepted next) :
    ∃ blocks returned waiting, Requested config state.lowerLevel next.lowerLevel blocks ∧
      Awaits next (expected ++ blocks) returned waiting := by
  cases step with
  | merged cpu simStats before after entry split same =>
      have block := Mshr.merge_block config entry
        (Mshr.ofTagLookup handlePkt state.currentTime) same
      have kept : ∃ returned waiting, Awaits
          { state with
            cpu
            simStats
            mshr := before ++ entry.merge (Mshr.ofTagLookup handlePkt state.currentTime) :: after }
          expected returned waiting := by
        apply awaits.resemble
        · rfl
        · rfl
        · rw [split, List.map_append, List.map_append, List.map_cons, List.map_cons, block]
        · rw [split, List.map_append, List.map_append, List.map_cons, List.map_cons]
          rfl
      obtain ⟨first, others, reached⟩ := kept
      refine ⟨[], first, others, Requested.none rfl rfl rfl, ?_⟩
      rw [List.append_nil]
      exact reached
  | refused cpu =>
      refine ⟨[], returned, waiting, Requested.none rfl rfl rfl, ?_⟩
      rw [List.append_nil]
      exact awaits.same ⟨rfl, rfl, rfl⟩
  | forwarded cpu simStats lowerLevel fresh room sent =>
      have requested := sendMiss_requested handlePkt lowerLevel sent
      cases asked : asksResponse handlePkt with
      | false =>
          rw [asked, if_neg Bool.false_ne_true] at requested
          rw [if_neg Bool.false_ne_true]
          refine ⟨[], returned, waiting, requested, ?_⟩
          rw [List.append_nil]
          exact awaits.same ⟨rfl, rfl, rfl⟩
      | true =>
          rw [asked, if_pos rfl] at requested
          rw [if_pos rfl]
          refine ⟨[config.blockNumber handlePkt.address], returned,
            waiting ++ [Mshr.ofTagLookup handlePkt state.currentTime], requested, ?_⟩
          constructor
          · change state.mshr ++ _ = _
            rw [awaits.split, List.append_assoc]
          · change (state.mshr ++ _).length ≤ _
            have bounded := awaits.bounded
            rw [List.length_append, List.length_singleton]
            omega
          · change ((state.mshr ++ _).map _).Nodup
            rw [List.map_append, List.nodup_append]
            refine ⟨awaits.distinct, List.nodup_singleton _, ?_⟩
            intro block present other isNew equal
            obtain ⟨entry, member, read⟩ := List.mem_map.mp present
            have newest : other = config.blockNumber handlePkt.address :=
              List.mem_singleton.mp isNew
            exact fresh ⟨entry, member, read.trans (equal.trans newest)⟩
          · exact awaits.ready
          · exact awaits.ordered
          · intro entry member
            rcases List.mem_append.mp member with older | newest
            · exact awaits.unknown entry older
            · rw [List.mem_singleton.mp newest]
              rfl
          · rw [List.map_append]
            exact awaits.expects.append_right _

/-! ### The parts of a cycle -/

/-- `state` awaits `outstanding` and what it has requested since `lowerLevel`. -/
def Tracks (config : Config) (lowerLevel : Channel) (outstanding : List (BitVec 64))
    (state : State config Module) : Prop :=
  ∃ blocks returned waiting, Requested config lowerLevel state.lowerLevel blocks ∧
    Awaits state (outstanding ++ blocks) returned waiting

theorem Tracks.same {lowerLevel : Channel} {outstanding : List (BitVec 64)}
    (tracks : Tracks config lowerLevel outstanding state) (kept : SameReturns state next)
    (channel : Requested config state.lowerLevel next.lowerLevel []) :
    Tracks config lowerLevel outstanding next := by
  obtain ⟨blocks, returned, waiting, requested, awaits⟩ := tracks
  refine ⟨blocks, returned, waiting, ?_, awaits.same kept⟩
  have both := requested.trans channel
  rw [List.append_nil] at both
  exact both

theorem fillEffect_keeps (fillMshr : Mshr) (filled : Bool)
    (effect : FillEffect state fillMshr filled next) :
    SameReturns state next ∧ Requested config state.lowerLevel next.lowerLevel [] := by
  cases effect with
  | refused cpu modules way within valid dirty full =>
      exact ⟨⟨rfl, rfl, rfl⟩, Requested.none rfl rfl rfl⟩
  | bypassed cpu added simStats modules metadata issued readable =>
      exact ⟨⟨rfl, rfl, rfl⟩, Requested.none rfl rfl rfl⟩
  | installed cpu added simStats modules metadata way lowerLevel issued within written =>
      refine ⟨⟨rfl, rfl, rfl⟩, ?_⟩
      change Requested config state.lowerLevel lowerLevel []
      unfold State.WrittenBack at written
      split at written
      · rw [addWq_appends written]
        exact Requested.none rfl rfl rfl
      · rw [written]
        exact Requested.none rfl rfl rfl

theorem fillSpan_keeps (hooks : Modules Module) (queue : List Mshr) (count : Nat)
    (ran : State.fillSpan hooks state queue = some (count, next)) :
    (SameReturns state next ∧ Requested config state.lowerLevel next.lowerLevel []) ∧
      count ≤ queue.length := by
  apply State.fillSpan_invariant hooks (fun reached => SameReturns state reached ∧
    Requested config state.lowerLevel reached.lowerLevel []) queue ?_ state count next
    ⟨SameReturns.refl state, Requested.none rfl rfl rfl⟩ ran
  intro middle entry _member filled last kept effect
  obtain ⟨same, channel⟩ := fillEffect_keeps entry filled effect
  have both := kept.2.trans channel
  exact ⟨kept.1.trans same, both⟩

theorem hitEffect_keeps (handlePkt : TagLookup) (hit : Bool)
    (effect : HitEffect state handlePkt hit next) :
    SameReturns state next ∧ Requested config state.lowerLevel next.lowerLevel [] := by
  cases effect with
  | missed => exact ⟨⟨rfl, rfl, rfl⟩, Requested.none rfl rfl rfl⟩
  | hit => exact ⟨⟨rfl, rfl, rfl⟩, Requested.none rfl rfl rfl⟩

theorem Tracks.doHandleMiss {lowerLevel : Channel} {outstanding : List (BitVec 64)}
    (tracks : Tracks config lowerLevel outstanding state) (pkt : TagLookup) :
    Tracks config lowerLevel outstanding (state.doHandleMiss pkt).2 := by
  unfold State.doHandleMiss
  split
  · exact tracks.same ⟨rfl, rfl, rfl⟩ (Requested.none rfl rfl rfl)
  · obtain ⟨blocks, returned, waiting, requested, awaits⟩ := tracks
    obtain ⟨more, first, others, further, reached⟩ := awaits.miss pkt _ (state.handleMiss_step pkt)
    rw [List.append_assoc] at reached
    exact ⟨blocks ++ more, first, others, requested.trans further, reached⟩

end Steps

namespace Pipeline

variable {config : OperateConfig} {Module : Type}

theorem finishPackets_tracks (pipeline next : Pipeline config Module)
    (outstanding : List (BitVec 64)) (returned waiting : List Mshr)
    (awaits : Awaits pipeline.toState (outstanding ++ pipeline.lowerLevel.returned.map
      (fun packet => config.blockNumber packet.address)) returned waiting)
    (ran : pipeline.finishPackets = some next) :
    Tracks config.toConfig { pipeline.lowerLevel with returned := [] } outstanding
      next.toState := by
  obtain ⟨finished, rest, finishes, _blocks, reached⟩ :=
    awaits.finishEach outstanding pipeline.lowerLevel.returned (List.Perm.refl _)
  obtain ⟨state, done, same⟩ := Option.map_eq_some_iff.mp ran
  cases finishes.symm.trans done
  subst same
  refine ⟨[], returned ++ finished, rest, Requested.none rfl rfl rfl, ?_⟩
  rw [List.append_nil]
  exact reached.same ⟨rfl, rfl, rfl⟩

theorem performFills_tracks (hooks : Modules Module) (pipeline next : Pipeline config Module)
    (lowerLevel : Channel) (outstanding : List (BitVec 64))
    (tracks : Tracks config.toConfig lowerLevel outstanding pipeline.toState)
    (ran : pipeline.performFills hooks = some next) :
    Tracks config.toConfig lowerLevel outstanding next.toState := by
  obtain ⟨⟨filled, middle⟩, mshrs, writes⟩ := Option.bind_eq_some_iff.mp ran
  obtain ⟨⟨count, reached⟩, first, same⟩ := Option.map_eq_some_iff.mp mshrs
  obtain ⟨⟨written, last⟩, second, done⟩ := Option.map_eq_some_iff.mp writes
  cases same
  subst done
  obtain ⟨blocks, returned, waiting, requested, awaits⟩ := tracks
  obtain ⟨⟨kept, channel⟩, atMost⟩ := fillSpan_keeps hooks _ _ first
  have within : filled ≤ returned.length := by
    apply Nat.le_trans atMost
    rw [awaits.split]
    apply Queue.span_length_le_front
    intro entry member
    rw [fillReady, Waitable.isReadyAt, awaits.unknown entry member]
  have dropped : Tracks config.toConfig lowerLevel outstanding
      { reached with mshr := reached.mshr.drop filled } := by
    refine ⟨blocks, returned.drop filled, waiting, ?_,
      (awaits.same kept).fill filled within rfl rfl rfl⟩
    have both := requested.trans channel
    rw [List.append_nil] at both
    exact both
  obtain ⟨⟨keptWrites, channelWrites⟩, _atMost⟩ := fillSpan_keeps hooks _ _ second
  exact (dropped.same keptWrites channelWrites).same ⟨rfl, rfl, rfl⟩ (Requested.none rfl rfl rfl)

theorem performTagChecks_tracks (hooks : Modules Module) (pipeline : Pipeline config Module)
    (lowerLevel : Channel) (outstanding : List (BitVec 64))
    (tracks : Tracks config.toConfig lowerLevel outstanding pipeline.toState) :
    Tracks config.toConfig lowerLevel outstanding
      (pipeline.performTagChecks hooks).toState := by
  apply performTagChecks_invariant hooks (Tracks config.toConfig lowerLevel outstanding)
  · intro state handlePkt accepted next before effect
    obtain ⟨same, channel⟩ := hitEffect_keeps handlePkt accepted effect
    exact before.same same channel
  · intro state handlePkt before
    exact before.doHandleMiss handlePkt
  · exact tracks

theorem operate_tracks (hooks : CycleModules Module) (pipeline next : Pipeline config Module)
    (outstanding : List (BitVec 64)) (returned waiting : List Mshr)
    (awaits : Awaits pipeline.toState (outstanding ++ pipeline.lowerLevel.returned.map
      (fun packet => config.blockNumber packet.address)) returned waiting)
    (ran : operate hooks pipeline = some next) :
    Tracks config.toConfig { pipeline.lowerLevel with returned := [] } outstanding
      next.toState := by
  obtain ⟨served, serves, checks⟩ := Option.bind_eq_some_iff.mp ran
  obtain ⟨finished, finishes, fills⟩ := Option.bind_eq_some_iff.mp serves
  obtain ⟨issued, issues, done⟩ := Option.map_eq_some_iff.mp checks
  obtain ⟨upperLevels, checked⟩ := pipeline.checkCollisions_shape
  rw [checked] at finishes
  have afterReturns := finishPackets_tracks { pipeline with upperLevels } finished outstanding returned waiting
    (awaits.same ⟨rfl, rfl, rfl⟩) finishes
  obtain ⟨stash, lookups, translate, translated⟩ := finished.finishTranslations_shape
  rw [translated] at fills
  have afterFills := performFills_tracks hooks.toModules
    { finished with
      translationStash := stash, inflightTagCheck := lookups, lowerTranslate := translate }
    served _ outstanding (afterReturns.same ⟨rfl, rfl, rfl⟩ (Requested.none rfl rfl rfl)) fills
  obtain ⟨uppers, order, internalPq, stashed, initiated, taken⟩ := served.initiateTagChecks_shape
  rw [taken] at issues
  obtain ⟨lookedUp, waits, channel, same⟩ := issueTranslations_shape _ issued issues
  have afterIssue : Tracks config.toConfig { pipeline.lowerLevel with returned := [] } outstanding
      issued.stashUntranslated.toState := by
    rw [same]
    exact afterFills.same ⟨rfl, rfl, rfl⟩ (Requested.none rfl rfl rfl)
  have afterChecks := performTagChecks_tracks hooks.toModules issued.stashUntranslated _
    outstanding afterIssue
  obtain ⟨added, stats, modules, _issued, cycled⟩ :=
    (issued.stashUntranslated.performTagChecks hooks.toModules).prefetcherCycleOperate_shape hooks
  rw [← done, cycled]
  exact afterChecks.same ⟨rfl, rfl, rfl⟩ (Requested.none rfl rfl rfl)

end Pipeline

/-! ### Runs -/

/-- The blocks that a response is asked for by what the level below has taken. -/
def requestedBlocks (config : Config) (before after : Channel) : List (BitVec 64) :=
  ((after.rq.drop before.rq.length ++ after.pq.drop before.pq.length).filter
    (fun request => request.responseRequested)).map
      (fun request => config.blockNumber request.address)

section Runs

variable {config : OperateConfig} {Module : Type}

/-- Only an answer that is due may come, and no phase returns to the warmup. -/
def Allowed (recorded : Pipeline config Module × List (BitVec 64)) : Step Module → Prop
  | .answer response => config.blockNumber response.address ∈ recorded.2
  | .beginPhase warmup => warmup = true → recorded.1.warmup = true
  | _ => True

instance (recorded : Pipeline config Module × List (BitVec 64)) (label : Step Module) :
    Decidable (Allowed recorded label) :=
  match label with
  | .answer response =>
      inferInstanceAs (Decidable (config.blockNumber response.address ∈ recorded.2))
  | .beginPhase warmup => inferInstanceAs (Decidable (warmup = true → recorded.1.warmup = true))
  | .operate => .isTrue trivial
  | .upperLevels _ => .isTrue trivial
  | .lowerQueues _ _ _ => .isTrue trivial
  | .translations _ => .isTrue trivial
  | .branchOperate _ _ => .isTrue trivial
  | .invalidateEntry _ => .isTrue trivial

def owedAfter (recorded : Pipeline config Module × List (BitVec 64))
    (next : Pipeline config Module) : Step Module → List (BitVec 64)
  | .operate => recorded.2 ++
      requestedBlocks config.toConfig recorded.1.lowerLevel next.lowerLevel
  | .answer response => recorded.2.erase (config.blockNumber response.address)
  | _ => recorded.2

/-- A cache over a level that answers each request for a response once. -/
def answered (hooks : CycleModules Module) :
    Machine (Pipeline config Module × List (BitVec 64)) (Step Module) where
  step recorded label :=
    if Allowed recorded label then
      (recorded.1.step hooks label).map (fun next => (next, owedAfter recorded next label))
    else none

def Owes (recorded : Pipeline config Module × List (BitVec 64)) : Prop :=
  ∃ returned waiting, Awaits recorded.1.toState (recorded.2 ++ recorded.1.lowerLevel.returned.map
    (fun packet => config.blockNumber packet.address)) returned waiting

theorem Awaits.later {state next : State config.toConfig Module} {expected : List (BitVec 64)}
    {returned waiting : List Mshr} (awaits : Awaits state expected returned waiting)
    (mshr : next.mshr = state.mshr)
    (deadline : state.currentTime + (if state.warmup then 0 else config.fillLatency) ≤
      next.currentTime + (if next.warmup then 0 else config.fillLatency)) :
    Awaits next expected returned waiting := by
  constructor
  · rw [mshr]
    exact awaits.split
  · rw [mshr]
    exact awaits.bounded
  · rw [mshr]
    exact awaits.distinct
  · intro entry member
    obtain ⟨cycle, known, bounded⟩ := awaits.ready entry member
    exact ⟨cycle, known, Nat.le_trans bounded deadline⟩
  · exact awaits.ordered
  · exact awaits.unknown
  · exact awaits.expects

theorem Owes.operate {recorded : Pipeline config Module × List (BitVec 64)} (owes : Owes recorded)
    (hooks : CycleModules Module) (next : Pipeline config Module)
    (ran : recorded.1.cycle hooks = some next) :
    Owes (next, recorded.2 ++
      requestedBlocks config.toConfig recorded.1.lowerLevel next.lowerLevel) := by
  obtain ⟨returned, waiting, awaits⟩ := owes
  have later : Awaits
      { recorded.1.toState with currentTime := recorded.1.currentTime + config.clockPeriod }
      (recorded.2 ++ recorded.1.lowerLevel.returned.map
        (fun packet => config.blockNumber packet.address)) returned waiting := by
    apply awaits.later
    · rfl
    · dsimp only
      omega
  obtain ⟨blocks, front, back, requested, reached⟩ := Pipeline.operate_tracks hooks
    { recorded.1 with currentTime := recorded.1.currentTime + config.clockPeriod } next
    recorded.2 returned waiting later ran
  obtain ⟨reads, prefetches, rq, pq, none, named⟩ := requested
  have taken : requestedBlocks config.toConfig recorded.1.lowerLevel next.lowerLevel =
      ((reads ++ prefetches).filter (fun request => request.responseRequested)).map
        (fun request => config.blockNumber request.address) := by
    unfold requestedBlocks
    rw [rq, pq, List.drop_left, List.drop_left]
  refine ⟨front, back, reached.reorder ?_⟩
  dsimp only
  rw [none, List.map_nil, List.append_nil, taken]
  exact named.append_left recorded.2

theorem Owes.answer {recorded : Pipeline config Module × List (BitVec 64)} (owes : Owes recorded)
    (response : Response) (due : config.blockNumber response.address ∈ recorded.2) :
    Owes ({ recorded.1 with lowerLevel := recorded.1.lowerLevel.pushReturned response },
      recorded.2.erase (config.blockNumber response.address)) := by
  obtain ⟨returned, waiting, awaits⟩ := owes
  refine ⟨returned, waiting, (awaits.reorder ?_).same ⟨rfl, rfl, rfl⟩⟩
  dsimp only [Channel.pushReturned]
  rw [List.map_append, List.map_singleton]
  have split := (List.perm_cons_erase due).append_right
    (recorded.1.lowerLevel.returned.map (fun packet => config.blockNumber packet.address))
  apply split.trans
  rw [List.cons_append, ← List.append_assoc]
  exact (List.perm_append_singleton _ _).symm

theorem Owes.step {recorded next : Pipeline config Module × List (BitVec 64)}
    (owes : Owes recorded) (hooks : CycleModules Module) (label : Step Module)
    (stepped : (answered hooks).step recorded label = some next) : Owes next := by
  unfold answered at stepped
  dsimp only at stepped
  by_cases allowed : Allowed recorded label
  · rw [if_pos allowed] at stepped
    obtain ⟨reached, ran, same⟩ := Option.map_eq_some_iff.mp stepped
    subst same
    obtain ⟨returned, waiting, awaits⟩ := owes
    cases label with
    | operate => exact Owes.operate ⟨returned, waiting, awaits⟩ hooks reached ran
    | upperLevels channels =>
        cases ran
        exact ⟨returned, waiting, awaits.same ⟨rfl, rfl, rfl⟩⟩
    | lowerQueues rq pq wq =>
        cases ran
        exact ⟨returned, waiting, awaits.same ⟨rfl, rfl, rfl⟩⟩
    | answer response =>
        cases ran
        exact Owes.answer ⟨returned, waiting, awaits⟩ response allowed
    | translations channel =>
        cases ran
        exact ⟨returned, waiting, awaits.same ⟨rfl, rfl, rfl⟩⟩
    | branchOperate modules calls =>
        obtain ⟨added, simStats, _issued, asked⟩ := recorded.1.toState.prefetchLines_shape calls
        cases ran
        rw [asked]
        exact ⟨returned, waiting, awaits.same ⟨rfl, rfl, rfl⟩⟩
    | beginPhase warmup =>
        cases ran
        refine ⟨returned, waiting, awaits.later rfl ?_⟩
        cases warmup with
        | true => rw [allowed rfl]
        | false =>
            dsimp only
            rw [if_neg Bool.false_ne_true]
            split <;> omega
    | invalidateEntry invalAddr =>
        cases ran
        unfold Pipeline.invalidateEntry
        dsimp only
        split
        · exact ⟨returned, waiting, awaits⟩
        · exact ⟨returned, waiting, awaits.same ⟨rfl, rfl, rfl⟩⟩
  · rw [if_neg allowed] at stepped
    cases stepped

/-- The miss registers are few and distinct, those with data come first in the
order of their cycles, every returned packet finds its register and joins the
end of these, and a span of ready registers leaves no ready one out. -/
structure WellOrdered (pipeline : Pipeline config Module) : Prop where
  bounded : pipeline.mshr.length ≤ config.mshrSize
  distinct : (pipeline.mshr.map (Mshr.block config.toConfig)).Nodup
  returnedFirst : ∃ returned waiting, pipeline.mshr = returned ++ waiting ∧
    (∀ entry ∈ returned, entry.hasReturned = true) ∧ returned.Pairwise ReadyBefore ∧
    ∀ entry ∈ waiting, entry.hasReturned = false
  found : ∃ next, pipeline.finishPackets = some next ∧
    (next.mshr.filter Mshr.hasReturned).map (Mshr.block config.toConfig) =
      (pipeline.mshr.filter Mshr.hasReturned).map (Mshr.block config.toConfig) ++
        pipeline.lowerLevel.returned.map (fun packet => config.blockNumber packet.address)
  fills : ∀ bandwidth time, Queue.span bandwidth (Pipeline.fillReady time) pipeline.mshr =
    (pipeline.mshr.filter (Pipeline.fillReady time)).take bandwidth

theorem Awaits.hasReturned {state : State config.toConfig Module} {expected : List (BitVec 64)}
    {returned waiting : List Mshr} (awaits : Awaits state expected returned waiting) :
    (∀ entry ∈ returned, entry.hasReturned = true) ∧
      ∀ entry ∈ waiting, entry.hasReturned = false := by
  constructor
  · intro entry member
    obtain ⟨cycle, known, _bounded⟩ := awaits.ready entry member
    rw [Mshr.hasReturned, Waitable.hasUnknownReadiness, known]
    rfl
  · intro entry member
    rw [Mshr.hasReturned, Waitable.hasUnknownReadiness, awaits.unknown entry member]
    rfl

theorem Awaits.filter_hasReturned {state : State config.toConfig Module}
    {expected : List (BitVec 64)} {returned waiting : List Mshr}
    (awaits : Awaits state expected returned waiting) :
    state.mshr.filter Mshr.hasReturned = returned := by
  obtain ⟨back, unknown⟩ := awaits.hasReturned
  rw [awaits.split, List.filter_append, List.filter_eq_self.mpr back]
  have none : waiting.filter Mshr.hasReturned = [] := by
    rw [List.filter_eq_nil_iff]
    intro entry member
    rw [unknown entry member]
    exact Bool.false_ne_true
  rw [none, List.append_nil]

theorem Awaits.descends {state : State config.toConfig Module} {expected : List (BitVec 64)}
    {returned waiting : List Mshr} (awaits : Awaits state expected returned waiting) (time : Nat) :
    state.mshr.Pairwise (fun earlier later =>
      Pipeline.fillReady time later = true → Pipeline.fillReady time earlier = true) := by
  rw [awaits.split, List.pairwise_append]
  have neverReady : ∀ entry ∈ waiting, Pipeline.fillReady time entry = false := by
    intro entry member
    rw [Pipeline.fillReady, Waitable.isReadyAt, awaits.unknown entry member]
  refine ⟨?_, ?_, ?_⟩
  · apply awaits.ordered.imp_of_mem
    intro earlier later earlierMember laterMember before ready
    obtain ⟨first, firstKnown, _bounded⟩ := awaits.ready earlier earlierMember
    obtain ⟨second, secondKnown, _alsoBounded⟩ := awaits.ready later laterMember
    have inOrder := before first second firstKnown secondKnown
    rw [Pipeline.fillReady, Waitable.isReadyAt, secondKnown] at ready
    rw [Pipeline.fillReady, Waitable.isReadyAt, firstKnown]
    exact decide_eq_true (Nat.le_trans inOrder (of_decide_eq_true ready))
  · apply List.pairwise_of_forall_mem_list
    intro earlier _member later laterMember ready
    rw [neverReady later laterMember] at ready
    cases ready
  · intro earlier _member later laterMember ready
    rw [neverReady later laterMember] at ready
    cases ready

theorem Owes.wellOrdered {recorded : Pipeline config Module × List (BitVec 64)}
    (owes : Owes recorded) : WellOrdered recorded.1 := by
  obtain ⟨returned, waiting, awaits⟩ := owes
  obtain ⟨back, unknown⟩ := awaits.hasReturned
  constructor
  · exact awaits.bounded
  · exact awaits.distinct
  · exact ⟨returned, waiting, awaits.split, back, awaits.ordered, unknown⟩
  · obtain ⟨finished, rest, ran, blocks, reached⟩ :=
      awaits.finishEach recorded.2 recorded.1.lowerLevel.returned (List.Perm.refl _)
    refine ⟨_, by rw [Pipeline.finishPackets, ran]; rfl, ?_⟩
    have front := congrArg (List.map (Mshr.block config.toConfig)) reached.filter_hasReturned
    rw [List.map_append, blocks] at front
    rw [awaits.filter_hasReturned]
    exact front
  · intro bandwidth time
    exact Queue.span_eq_take_filter bandwidth _ _ (awaits.descends time)

theorem owes_of_idle {pipeline : Pipeline config Module} (idle : Idle pipeline) :
    Owes (pipeline, []) := by
  refine ⟨[], [], ?_⟩
  constructor
  · exact idle.mshr
  · rw [idle.mshr]
    exact Nat.zero_le _
  · rw [idle.mshr]
    exact List.nodup_nil
  · intro entry member
    cases member
  · exact List.Pairwise.nil
  · intro entry member
    cases member
  · rw [idle.returned]
    exact List.Perm.refl []

/-- In every state that a cache reaches over such a level, its miss registers
are well ordered. -/
theorem answered_wellOrdered (hooks : CycleModules Module) (start : Pipeline config Module)
    (idle : Idle start) (labels : List (Step Module))
    (reached : Pipeline config Module × List (BitVec 64))
    (ran : (answered hooks).run (start, []) labels = some reached) : WellOrdered reached.1 := by
  apply Owes.wellOrdered
  apply (answered hooks).run_invariant Owes ?_ labels (start, []) reached (owes_of_idle idle) ran
  intro recorded label next owes stepped
  exact owes.step hooks label stepped

end Runs

/-! ### A miss and its answer -/

def missAndAnswer : List (Step Unit) :=
  [.upperLevels (requestsAbove [{ address := 0x40 }] []), .operate, .operate,
    .answer { address := 0x40 }, .operate]

private theorem missAndAnswer_runs :
    ((answered silentCycle).run (idleCache, []) missAndAnswer).isSome = true := by
  decide +kernel

theorem answered_wellOrdered_miss :
    ∃ reached, (answered silentCycle).run (idleCache, []) missAndAnswer = some reached ∧
      WellOrdered reached.1 := by
  obtain ⟨reached, ran⟩ := Option.isSome_iff_exists.mp missAndAnswer_runs
  exact ⟨reached, ran, answered_wellOrdered silentCycle idleCache idleCache_idle missAndAnswer
    reached ran⟩

end ChampSim.Cache

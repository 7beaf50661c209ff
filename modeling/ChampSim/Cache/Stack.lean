/-
A cache over the level below it, and a hierarchy of them.

A level below serves the requests of one channel: another cache, which has a
level of its own below it, or a memory. What it owes for a block is kept by all
that it does, as long as that is one response at most. The cache above asks for
a block only while no register waits for it. So each register is answered once,
and nothing has to be assumed about the answers.
-/

import ChampSim.Cache.Promises

set_option autoImplicit false

namespace ChampSim.Cache

open Transition

/-- The responses for a block that are asked for, held or on their way. -/
def Channel.due (offsetBits : Nat) (block : BitVec 64) (channel : Channel) (held : Nat) : Nat :=
  channel.asked offsetBits block + held + channel.replied offsetBits block

structure LevelBelow (offsetBits : Nat) where
  State : Type
  Label : Type
  machine : Machine State Label
  channel : State → Channel
  connect : Channel → State → State
  held : BitVec 64 → State → Nat
  Sound : State → Prop
  channel_connect : ∀ used state, Sound state → channel (connect used state) = used
  held_connect : ∀ used block state, held block (connect used state) = held block state
  sound_connect : ∀ used state, Sound state → used.Plain → Sound (connect used state)
  plain : ∀ state, Sound state → (channel state).Plain
  serves : ∀ state label next, Sound state →
    (∀ block, (channel state).due offsetBits block (held block state) ≤ 1) →
    machine.step state label = some next → Sound next ∧
      ∀ block, (channel next).due offsetBits block (held block next) =
        (channel state).due offsetBits block (held block state)

def LevelBelow.due {offsetBits : Nat} (below : LevelBelow offsetBits) (block : BitVec 64)
    (state : below.State) : Nat :=
  (below.channel state).due offsetBits block (below.held block state)

/-! ### What a cache sends below -/

section Sends

variable {config : OperateConfig} {Module : Type}

theorem Channel.Plain.addWq {channel next : Channel} (plain : channel.Plain) {packet : Request}
    (silent : packet.responseRequested = false) (sent : channel.addWq packet = some next) :
    next.Plain := by
  rw [addWq_appends sent]
  refine ⟨plain.reads, ?_⟩
  intro request member
  rcases List.mem_append.mp member with older | newest
  · exact plain.writes request older
  · rw [List.mem_singleton.mp newest]
    exact silent

theorem plain_sendMiss {state : State config.toConfig Module} (plain : state.lowerLevel.Plain)
    (handlePkt : TagLookup) (lowerLevel : Channel)
    (sent : state.sendMiss handlePkt = some lowerLevel) : lowerLevel.Plain := by
  obtain ⟨reads, prefetches⟩ := List.forall_mem_append.mp plain.reads
  have translated : ∀ request ∈
      [{ (state.mshrAndForwardPacket handlePkt).2 with forwardChecked := false }],
        request.isTranslated = true := by
    intro request member
    rw [List.mem_singleton.mp member]
    rfl
  unfold State.sendMiss at sent
  split at sent
  · rw [addRq_appends sent]
    exact ⟨List.forall_mem_append.mpr
      ⟨List.forall_mem_append.mpr ⟨reads, translated⟩, prefetches⟩, plain.writes⟩
  · rw [addPq_appends sent]
    exact ⟨List.forall_mem_append.mpr
      ⟨reads, List.forall_mem_append.mpr ⟨prefetches, translated⟩⟩, plain.writes⟩

/-- A cache reads with physical addresses and asks for no response to a write. -/
theorem operate_plain (hooks : CycleModules Module) (pipeline next : Pipeline config Module)
    (plain : pipeline.lowerLevel.Plain) (ran : pipeline.operate hooks = some next) :
    next.lowerLevel.Plain := by
  obtain ⟨ready, served, begins, fills, checks⟩ := Pipeline.operate_parts hooks pipeline next ran
  have begun : ready.lowerLevel.Plain := by
    obtain ⟨finished, finishes, isReady⟩ := Option.map_eq_some_iff.mp begins
    obtain ⟨state, returned, isFinished⟩ := Option.map_eq_some_iff.mp finishes
    obtain ⟨upperLevels, checked⟩ := pipeline.checkCollisions_shape
    obtain ⟨stash, lookups, translate, translated⟩ := finished.finishTranslations_shape
    rw [checked] at returned
    have kept : state.lowerLevel = pipeline.lowerLevel := by
      rw [State.finishEach_withMshr _ state _ returned]
      rfl
    rw [← isReady, translated, ← isFinished]
    dsimp only
    rw [kept]
    exact ⟨plain.reads, plain.writes⟩
  have filled : served.lowerLevel.Plain := by
    apply Pipeline.performFills_invariant hooks.toModules (fun state => state.lowerLevel.Plain)
      ready served ?_ (fun _state _mshr _writes before => before) begun fills
    intro state entry _member filled last before effect
    cases effect with
    | refused => exact before
    | bypassed => exact before
    | installed cpu added simStats modules metadata way lowerLevel issued within written =>
        unfold State.WrittenBack at written
        split at written
        · exact before.addWq rfl written
        · rw [written]
          exact before
  apply Pipeline.checkTags_invariant hooks (fun state => state.lowerLevel.Plain) served next ?_ ?_
    (fun _state _levels _internalPq _simStats _modules before => before) filled checks
  · intro state handlePkt accepted last before effect
    cases effect with
    | missed => exact before
    | hit => exact before
  · intro state handlePkt before
    apply state.doHandleMiss_cases handlePkt (fun missed => missed.2.lowerLevel.Plain)
    · intro _written
      exact before
    · intro accepted last step
      cases step with
      | merged => exact before
      | refused => exact before
      | forwarded cpu simStats lowerLevel fresh room sent =>
          exact plain_sendMiss before handlePkt lowerLevel sent

end Sends

/-! ### A cache and the level below it -/

section Stacks

variable {config : OperateConfig} {Module : Type}

inductive Turn (Module Label : Type) where
  | above (label : Step Module)
  | below (label : Label)

/-- The level below alone uses the channel, and no phase returns to the warmup. -/
def TakesTurn (pipeline : Pipeline config Module) : Step Module → Prop
  | .lowerQueues _ _ _ => False
  | .answer _ => False
  | .beginPhase warmup => warmup = true → pipeline.warmup = true
  | _ => True

instance (pipeline : Pipeline config Module) (label : Step Module) :
    Decidable (TakesTurn pipeline label) :=
  match label with
  | .lowerQueues _ _ _ => .isFalse id
  | .answer _ => .isFalse id
  | .beginPhase warmup => inferInstanceAs (Decidable (warmup = true → pipeline.warmup = true))
  | .operate => .isTrue trivial
  | .upperLevels _ => .isTrue trivial
  | .translations _ => .isTrue trivial
  | .branchOperate _ _ => .isTrue trivial
  | .invalidateEntry _ => .isTrue trivial

def stack (hooks : CycleModules Module) (below : LevelBelow config.offsetBits) :
    Machine (Pipeline config Module × below.State) (Turn Module below.Label) where
  step reached
    | .above label =>
        if TakesTurn reached.1 label then
          (reached.1.step hooks label).map (fun next =>
            (next, below.connect next.lowerLevel reached.2))
        else none
    | .below label =>
        (below.machine.step reached.2 label).map (fun next =>
          ({ reached.1 with lowerLevel := below.channel next }, next))

def Pipeline.waitingFor (block : BitVec 64) (pipeline : Pipeline config Module) : Nat :=
  (pipeline.mshr.filter (fun entry => !entry.hasReturned)).countP
    (fun entry => decide (entry.block config.toConfig = block))

/-- Each register that waits is due one response below. -/
structure Covered (below : LevelBelow config.offsetBits)
    (reached : Pipeline config Module × below.State) : Prop where
  channel : below.channel reached.2 = reached.1.lowerLevel
  sound : below.Sound reached.2
  awaits : ∃ expected returned waiting, Awaits reached.1.toState expected returned waiting ∧
    ∀ block, expected.count block = below.due block reached.2

theorem count_responses (packets : List Response) (block : BitVec 64) :
    (packets.map (fun packet => config.blockNumber packet.address)).count block =
      packets.countP (Response.answers config.offsetBits block) := by
  rw [List.count_eq_countP, List.countP_map]
  rfl

theorem count_requests (packets : List Request) (block : BitVec 64) :
    ((packets.filter (fun request => request.responseRequested)).map
        (fun request => config.blockNumber request.address)).count block =
      packets.countP (Request.asks config.offsetBits block) := by
  rw [List.count_eq_countP, List.countP_map, List.countP_filter]
  apply congrArg (fun asks => packets.countP asks)
  funext request
  exact Bool.and_comm _ _

theorem Requested.asked {before after : Channel} {blocks : List (BitVec 64)}
    (requested : Requested config.toConfig before after blocks) (block : BitVec 64) :
    after.asked config.offsetBits block =
        before.asked config.offsetBits block + blocks.count block ∧
      after.returned = before.returned := by
  obtain ⟨reads, prefetches, rq, pq, returned, named⟩ := requested
  refine ⟨?_, returned⟩
  rw [named.count_eq, count_requests]
  unfold Channel.asked
  rw [rq, pq, List.countP_append, List.countP_append, List.countP_append]
  omega

namespace Covered

variable {below : LevelBelow config.offsetBits}
  {reached : Pipeline config Module × below.State}

theorem due_le_one (covered : Covered below reached) (block : BitVec 64) :
    below.due block reached.2 ≤ 1 := by
  obtain ⟨expected, returned, waiting, awaits, due⟩ := covered.awaits
  rw [← due block]
  have distinct := awaits.distinct
  rw [awaits.split, List.map_append, List.nodup_append] at distinct
  exact List.nodup_iff_count_le_one.mp (awaits.expects.nodup_iff.mp distinct.2.1) block

theorem split (covered : Covered below reached) :
    ∃ outstanding returned waiting, Awaits reached.1.toState
        (outstanding ++ reached.1.lowerLevel.returned.map
          (fun packet => config.blockNumber packet.address)) returned waiting ∧
      ∀ block, outstanding.count block + reached.1.lowerLevel.replied config.offsetBits block =
        below.due block reached.2 := by
  obtain ⟨expected, returned, waiting, awaits, due⟩ := covered.awaits
  have sent : ∀ block, (reached.1.lowerLevel.returned.map
      (fun packet => config.blockNumber packet.address)).count block ≤ expected.count block := by
    intro block
    rw [count_responses, due block]
    unfold LevelBelow.due Channel.due
    rw [covered.channel]
    exact Nat.le_add_left _ _
  have parts := (List.subperm_append_diff_self_of_count_le
    (fun block _member => sent block)).symm.trans List.perm_append_comm
  refine ⟨_, returned, waiting, awaits.reorder parts, ?_⟩
  intro block
  have within := sent block
  rw [← due block, List.count_diff]
  rw [count_responses] at within ⊢
  exact Nat.sub_add_cancel within

theorem operate (covered : Covered below reached) (hooks : CycleModules Module)
    (next : Pipeline config Module) (ran : reached.1.cycle hooks = some next) :
    Covered below (next, below.connect next.lowerLevel reached.2) := by
  obtain ⟨outstanding, returned, waiting, awaits, due⟩ := covered.split
  have plain : reached.1.lowerLevel.Plain :=
    covered.channel ▸ below.plain reached.2 covered.sound
  have stillPlain := operate_plain hooks
    { reached.1 with currentTime := reached.1.currentTime + config.clockPeriod } next plain ran
  have later : Awaits
      { reached.1.toState with currentTime := reached.1.currentTime + config.clockPeriod }
      (outstanding ++ reached.1.lowerLevel.returned.map
        (fun packet => config.blockNumber packet.address)) returned waiting := by
    apply awaits.later
    · rfl
    · dsimp only
      omega
  obtain ⟨blocks, front, back, requested, tracks⟩ := Pipeline.operate_tracks hooks
    { reached.1 with currentTime := reached.1.currentTime + config.clockPeriod } next
    outstanding returned waiting later ran
  constructor
  · exact below.channel_connect _ _ covered.sound
  · exact below.sound_connect _ _ covered.sound stillPlain
  · refine ⟨_, front, back, tracks, ?_⟩
    intro block
    obtain ⟨asked, none⟩ := requested.asked block
    have before := due block
    unfold LevelBelow.due Channel.due Channel.replied at before ⊢
    rw [covered.channel] at before
    rw [below.channel_connect _ _ covered.sound, below.held_connect, asked, none,
      List.count_append]
    change _ = reached.1.lowerLevel.asked config.offsetBits block + _ + _ + 0
    omega

/-- A step of the cache that leaves its registers and the channel below as they are. -/
theorem idle (covered : Covered below reached) (next : Pipeline config Module)
    (mshr : next.mshr = reached.1.mshr) (lowerLevel : next.lowerLevel = reached.1.lowerLevel)
    (deadline : reached.1.currentTime + (if reached.1.warmup then 0 else config.fillLatency) ≤
      next.currentTime + (if next.warmup then 0 else config.fillLatency)) :
    Covered below (next, below.connect next.lowerLevel reached.2) := by
  obtain ⟨expected, returned, waiting, awaits, due⟩ := covered.awaits
  have same : next.lowerLevel = below.channel reached.2 :=
    lowerLevel.trans covered.channel.symm
  constructor
  · exact below.channel_connect _ _ covered.sound
  · apply below.sound_connect _ _ covered.sound
    rw [same]
    exact below.plain reached.2 covered.sound
  · refine ⟨expected, returned, waiting, awaits.later mshr deadline, ?_⟩
    intro block
    rw [due block]
    unfold LevelBelow.due
    rw [below.channel_connect _ _ covered.sound, below.held_connect, same]

theorem serve (covered : Covered below reached) (label : below.Label) (next : below.State)
    (stepped : below.machine.step reached.2 label = some next) :
    Covered below ({ reached.1 with lowerLevel := below.channel next }, next) := by
  obtain ⟨expected, returned, waiting, awaits, due⟩ := covered.awaits
  obtain ⟨sound, kept⟩ := below.serves reached.2 label next covered.sound covered.due_le_one
    stepped
  refine ⟨rfl, sound, expected, returned, waiting, awaits.same ⟨rfl, rfl, rfl⟩, ?_⟩
  intro block
  rw [due block]
  exact (kept block).symm

theorem step (covered : Covered below reached) (hooks : CycleModules Module)
    (turn : Turn Module below.Label) (next : Pipeline config Module × below.State)
    (stepped : (stack hooks below).step reached turn = some next) : Covered below next := by
  cases turn with
  | below label =>
      obtain ⟨state, ran, same⟩ := Option.map_eq_some_iff.mp stepped
      subst same
      exact covered.serve label state ran
  | above label =>
      unfold stack at stepped
      dsimp only at stepped
      by_cases takes : TakesTurn reached.1 label
      · rw [if_pos takes] at stepped
        obtain ⟨pipeline, ran, same⟩ := Option.map_eq_some_iff.mp stepped
        subst same
        cases label with
        | operate => exact covered.operate hooks pipeline ran
        | lowerQueues rq pq wq => exact takes.elim
        | answer response => exact takes.elim
        | upperLevels channels =>
            cases ran
            exact covered.idle _ rfl rfl (Nat.le_refl _)
        | translations channel =>
            cases ran
            exact covered.idle _ rfl rfl (Nat.le_refl _)
        | branchOperate modules calls =>
            obtain ⟨added, simStats, _issued, asked⟩ := reached.1.toState.prefetchLines_shape calls
            cases ran
            rw [asked]
            exact covered.idle _ rfl rfl (Nat.le_refl _)
        | beginPhase warmup =>
            cases ran
            apply covered.idle { reached.1 with warmup, simStats := {} } rfl rfl
            cases warmup with
            | true => rw [takes rfl]
            | false =>
                dsimp only
                rw [if_neg Bool.false_ne_true]
                split <;> omega
        | invalidateEntry invalAddr =>
            cases ran
            obtain ⟨blocks, same⟩ := reached.1.invalidateEntry_shape invalAddr
            rw [same]
            exact covered.idle _ rfl rfl (Nat.le_refl _)
      · rw [if_neg takes] at stepped
        cases stepped

theorem run (below : LevelBelow config.offsetBits) (hooks : CycleModules Module)
    (turns : List (Turn Module below.Label)) (start last : Pipeline config Module × below.State)
    (covered : Covered below start)
    (ran : (stack hooks below).run start turns = some last) : Covered below last := by
  apply (stack hooks below).run_invariant (Covered below) ?_ turns start last covered ran
  intro earlier turn next before stepped
  exact before.step hooks turn next stepped

theorem wellOrdered (covered : Covered below reached) : WellOrdered reached.1 := by
  obtain ⟨outstanding, returned, waiting, awaits, _due⟩ := covered.split
  have owes : Owes (reached.1, outstanding) := ⟨returned, waiting, awaits⟩
  exact owes.wellOrdered

/-- Each register that waits for a block is due one response, and no more are due. -/
theorem waitingFor (covered : Covered below reached) (block : BitVec 64) :
    reached.1.waitingFor block = below.due block reached.2 := by
  obtain ⟨expected, returned, waiting, awaits, due⟩ := covered.awaits
  obtain ⟨back, unknown⟩ := awaits.hasReturned
  rw [← due block, ← awaits.expects.count_eq, List.count_eq_countP, List.countP_map]
  unfold Pipeline.waitingFor
  rw [awaits.split, List.filter_append]
  have front : returned.filter (fun entry => !entry.hasReturned) = [] := by
    rw [List.filter_eq_nil_iff]
    intro entry member
    rw [back entry member]
    exact Bool.false_ne_true
  have rest : waiting.filter (fun entry => !entry.hasReturned) = waiting := by
    rw [List.filter_eq_self]
    intro entry member
    rw [unknown entry member]
    rfl
  rw [front, rest, List.nil_append]
  rfl

end Covered

/-- A cache that holds nothing, over a level that is due nothing. -/
structure Rests (below : LevelBelow config.offsetBits)
    (reached : Pipeline config Module × below.State) : Prop where
  idle : Idle reached.1
  channel : below.channel reached.2 = reached.1.lowerLevel
  sound : below.Sound reached.2
  quiet : ∀ block, below.due block reached.2 = 0

theorem Rests.covered {below : LevelBelow config.offsetBits}
    {reached : Pipeline config Module × below.State} (rests : Rests below reached) :
    Covered below reached := by
  obtain ⟨returned, waiting, awaits⟩ := owes_of_idle rests.idle
  refine ⟨rests.channel, rests.sound, _, returned, waiting, awaits, ?_⟩
  intro block
  rw [rests.quiet block, rests.idle.returned]
  rfl

/-! ### A cache as the level below another -/

/-- What a cache below keeps of itself and of the level below it. -/
structure Serving (number : Nat) (lower : LevelBelow config.offsetBits)
    (reached : Pipeline config Module × lower.State) : Prop where
  silent : reached.1.Silent
  plain : (reached.1.upperLevels number).Plain
  physical : ∀ entry ∈ reached.1.lookups, number ∈ entry.toReturn → entry.isTranslated = true
  covered : Covered lower reached

/-- The channel of a level is used by the cache and that level alone. -/
def LeavesTurn {Label : Type} (number : Nat) (pipeline : Pipeline config Module) :
    Turn Module Label → Prop
  | .above label => Pipeline.LeavesLevel number pipeline label
  | .below _ => True

instance {Label : Type} (number : Nat) (pipeline : Pipeline config Module)
    (turn : Turn Module Label) : Decidable (LeavesTurn number pipeline turn) :=
  match turn with
  | .above label => inferInstanceAs (Decidable (Pipeline.LeavesLevel number pipeline label))
  | .below _ => .isTrue trivial

def Pipeline.heldFor (number : Nat) (block : BitVec 64) (pipeline : Pipeline config Module) : Nat :=
  pipeline.lookupsOwe number block + pipeline.recordsOwe number block

theorem Pipeline.due_eq (number : Nat) (block : BitVec 64) (pipeline : Pipeline config Module) :
    (pipeline.upperLevels number).due config.offsetBits block (pipeline.heldFor number block) =
      pipeline.owed number block + pipeline.replied number block := by
  unfold Channel.due heldFor owed State.replied
  omega

theorem Serving.step {number : Nat} {lower : LevelBelow config.offsetBits}
    {reached next : Pipeline config Module × lower.State} (serving : Serving number lower reached)
    (bits : config.upperOffsetBits number = config.offsetBits) (hooks : CycleModules Module)
    (turn : Turn Module lower.Label) (leaves : LeavesTurn number reached.1 turn)
    (few : ∀ block, (reached.1.upperLevels number).due config.offsetBits block
      (reached.1.heldFor number block) ≤ 1)
    (stepped : (stack hooks lower).step reached turn = some next) :
    Serving number lower next ∧ ∀ block,
      (next.1.upperLevels number).due config.offsetBits block (next.1.heldFor number block) =
        (reached.1.upperLevels number).due config.offsetBits block
          (reached.1.heldFor number block) := by
  have covered := serving.covered.step hooks turn next stepped
  cases turn with
  | below label =>
      obtain ⟨state, _ran, same⟩ := Option.map_eq_some_iff.mp stepped
      subst same
      exact ⟨⟨⟨serving.silent.own, serving.silent.areLocal⟩, serving.plain, serving.physical,
        covered⟩, fun _block => rfl⟩
  | above label =>
      obtain ⟨pipeline, ran, same⟩ : ∃ pipeline, reached.1.step hooks label = some pipeline ∧
          (pipeline, lower.connect pipeline.lowerLevel reached.2) = next := by
        unfold stack at stepped
        dsimp only at stepped
        split at stepped
        · exact Option.map_eq_some_iff.mp stepped
        · cases stepped
      subst same
      have promises : ∀ block, pipeline.Promises number block
          (reached.1.owed number block + reached.1.replied number block) := by
        intro block
        have atMost := few block
        rw [Pipeline.due_eq] at atMost
        exact Pipeline.step_promises bits atMost hooks reached.1 pipeline label leaves
          serving.silent ⟨rfl, serving.plain, serving.physical⟩ ran
      constructor
      · exact ⟨Pipeline.step_silent hooks reached.1 pipeline label serving.silent ran,
          (promises 0).plain, (promises 0).physical, covered⟩
      · intro block
        rw [Pipeline.due_eq, Pipeline.due_eq]
        exact (promises block).balance

/-- A cache serves one of the levels above it, as any level below does. -/
def cacheBelow (hooks : CycleModules Module) (number : Nat) (lower : LevelBelow config.offsetBits)
    (bits : config.upperOffsetBits number = config.offsetBits) (offsetBits : Nat)
    (same : config.offsetBits = offsetBits) : LevelBelow offsetBits where
  State := Pipeline config Module × lower.State
  Label := Turn Module lower.Label
  machine :=
    { step := fun reached turn =>
        if LeavesTurn number reached.1 turn then (stack hooks lower).step reached turn else none }
  channel reached := reached.1.upperLevels number
  connect used reached := (reached.1.updateUpper number (fun _ => used), reached.2)
  held block reached := reached.1.heldFor number block
  Sound := Serving number lower
  channel_connect used reached _serving := if_pos rfl
  held_connect _used _block _reached := rfl
  sound_connect used reached serving plain := by
    obtain ⟨channel, sound, expected, returned, waiting, awaits, due⟩ := serving.covered
    refine ⟨⟨serving.silent.own, serving.silent.areLocal⟩, ?_, serving.physical, channel, sound,
      expected, returned, waiting, awaits.same ⟨rfl, rfl, rfl⟩, due⟩
    have connected : (reached.1.updateUpper number (fun _ => used)).upperLevels number = used :=
      if_pos rfl
    rw [connected]
    exact plain
  plain reached serving := serving.plain
  serves reached turn next serving few stepped := by
    subst same
    dsimp only at stepped
    split at stepped
    case isTrue leaves => exact serving.step bits hooks turn leaves few stepped
    case isFalse => cases stepped

structure Channel.Empty (channel : Channel) : Prop where
  rq : channel.rq = []
  pq : channel.pq = []
  wq : channel.wq = []
  returned : channel.returned = []

theorem Channel.Empty.plain {channel : Channel} (empty : channel.Empty) : channel.Plain := by
  constructor
  · intro request member
    rw [empty.rq, empty.pq] at member
    cases member
  · intro request member
    rw [empty.wq] at member
    cases member

theorem Channel.Empty.due {channel : Channel} (empty : channel.Empty) (offsetBits : Nat)
    (block : BitVec 64) (held : Nat) : channel.due offsetBits block held = held := by
  unfold Channel.due Channel.asked Channel.replied
  rw [empty.rq, empty.pq, empty.returned]
  exact Nat.zero_add held

theorem Rests.below {lower : LevelBelow config.offsetBits}
    {reached : Pipeline config Module × lower.State} (rests : Rests lower reached)
    (hooks : CycleModules Module) (number : Nat)
    (bits : config.upperOffsetBits number = config.offsetBits) (offsetBits : Nat)
    (same : config.offsetBits = offsetBits) (empty : (reached.1.upperLevels number).Empty) :
    (cacheBelow hooks number lower bits offsetBits same).Sound reached ∧
      ∀ block, (cacheBelow hooks number lower bits offsetBits same).due block reached = 0 := by
  have lookups : reached.1.lookups = [] := by
    unfold Pipeline.lookups
    rw [rests.idle.inflightTagCheck, rests.idle.translationStash]
    rfl
  constructor
  · refine ⟨⟨?_, ?_⟩, empty.plain, ?_, rests.covered⟩
    · intro entry member
      rw [rests.idle.internalPq] at member
      cases member
    · intro entry member
      rw [lookups] at member
      cases member
    · intro entry member
      rw [lookups] at member
      cases member
  · intro block
    refine (empty.due offsetBits block _).trans ?_
    change reached.1.heldFor number block = 0
    unfold Pipeline.heldFor Pipeline.lookupsOwe State.recordsOwe
    rw [lookups, rests.idle.mshr, rests.idle.inflightWrites]
    rfl

end Stacks

end ChampSim.Cache

/-
The prefetches that a cache issues to itself.

A prefetch is marked as the own one of the cache in the queue, during its tag
check, in its miss and in its block, until it is counted as useful or useless.
What has been issued, less the marks and the counts, is never lowered.
-/

import ChampSim.Cache.Ledger

set_option autoImplicit false

namespace ChampSim.Cache

open Transition

/-! ### Marks -/

def CacheBlock.isPrefetched (block : CacheBlock) : Bool := block.valid && block.prefetch

theorem Mshr.merge_prefetchFromThis (predecessor successor : Mshr) :
    (predecessor.merge successor).prefetchFromThis =
      if successor.type = .prefetch then predecessor.prefetchFromThis
      else successor.prefetchFromThis := by
  change (if successor.type = .prefetch then predecessor else successor).prefetchFromThis = _
  exact apply_ite Mshr.prefetchFromThis _ _ _

/-- How many of the packets and records are prefetches of the cache. -/
def ownLookups (entries : List TagLookup) : Nat :=
  entries.countP (fun entry => entry.prefetchFromThis)

def ownRecords (records : List Mshr) : Nat :=
  records.countP (fun record => record.prefetchFromThis)

theorem ownLookups_append (first second : List TagLookup) :
    ownLookups (first ++ second) = ownLookups first + ownLookups second := List.countP_append

theorem ownRecords_append (first second : List Mshr) :
    ownRecords (first ++ second) = ownRecords first + ownRecords second := List.countP_append

theorem ownRecords_cons (record : Mshr) (rest : List Mshr) :
    ownRecords (record :: rest) = ownRecords rest + record.prefetchFromThis.toNat := by
  unfold ownRecords
  rw [List.countP_cons]
  cases record.prefetchFromThis with
  | false => rfl
  | true => rfl

theorem ownRecords_singleton (record : Mshr) :
    ownRecords [record] = record.prefetchFromThis.toNat :=
  (ownRecords_cons record []).trans (Nat.zero_add _)

theorem ownLookups_of_map {entries others : List TagLookup}
    (same : others.map (fun entry => entry.prefetchFromThis) =
      entries.map (fun entry => entry.prefetchFromThis)) : ownLookups others = ownLookups entries := by
  have through : ∀ packets : List TagLookup,
      ownLookups packets = (packets.map (fun entry => entry.prefetchFromThis)).countP id := by
    intro packets
    unfold ownLookups
    rw [List.countP_map]
    rfl
  rw [through, same, ← through]

namespace State

variable {config : Config} {Module : Type}

/-- The prefetches that are counted and those that the cache still marks as its own. -/
def marks (state : State config Module) : Nat :=
  state.simStats.pfUseful + state.simStats.pfUseless +
    state.block.countCells CacheBlock.isPrefetched + ownRecords state.mshr +
      ownRecords state.inflightWrites + ownLookups state.internalPq

/-- The issued prefetches that are neither counted nor marked. -/
def credit (state : State config Module) : Int := state.simStats.pfIssued - state.marks

/-! ### Prefetches and tag checks -/

theorem prefetchLine_credit (state : State config Module) (call : PrefetchLine) :
    (state.prefetchLine call).credit = state.credit := by
  unfold prefetchLine
  dsimp only
  split
  · rfl
  · unfold credit marks countStats
    dsimp only
    rw [ownLookups_append]
    change ((_ + 1 : Nat) : Int) - ((_ + (_ + 1) : Nat) : Int) = _
    omega

theorem prefetchLines_credit (state : State config Module) (calls : List PrefetchLine) :
    (state.prefetchLines calls).credit = state.credit := by
  unfold prefetchLines
  induction calls generalizing state with
  | nil => rfl
  | cons call rest ih =>
      rw [List.foldl_cons, ih]
      exact prefetchLine_credit state call

/-- A way that is overwritten loses its mark and takes that of the new block. -/
theorem setBlock_credit (state : State config Module) (address : Address) (way : Nat)
    (block : CacheBlock) (within : way < config.numWay) :
    (state.setBlock (config.getSetIndex address) way block).credit + block.isPrefetched.toNat =
      state.credit + (state.blockAt (config.getSetIndex address) way).isPrefetched.toNat := by
  have counted := CArray.countCells_set2 state.block (config.getSetIndex address) way block
    CacheBlock.isPrefetched (config.getSetIndex_lt address) within
  unfold credit marks setBlock blockAt
  dsimp only
  cases old : (state.block.at2 (config.getSetIndex address) way).isPrefetched with
  | false =>
      rw [old, if_neg Bool.false_ne_true] at counted
      cases new : block.isPrefetched with
      | false =>
          rw [new, if_neg Bool.false_ne_true] at counted
          simp only [Bool.toNat_false]
          omega
      | true =>
          rw [new, if_pos rfl] at counted
          simp only [Bool.toNat_false, Bool.toNat_true]
          omega
  | true =>
      rw [old, if_pos rfl] at counted
      cases new : block.isPrefetched with
      | false =>
          rw [new, if_neg Bool.false_ne_true] at counted
          simp only [Bool.toNat_false, Bool.toNat_true]
          omega
      | true =>
          rw [new, if_pos rfl] at counted
          simp only [Bool.toNat_true]
          omega

theorem respond_credit (state : State config Module) (toReturn : List Nat) (response : Response) :
    (state.respond toReturn response).credit = state.credit := by
  rw [respond_eq]
  rfl

theorem prefetchLines_block (state : State config Module) (calls : List PrefetchLine) :
    (state.prefetchLines calls).block = state.block := by
  obtain ⟨added, simStats, _issued, shape⟩ := state.prefetchLines_shape calls
  rw [shape]

/-- A hit that counts a prefetch as useful clears the mark of its block. -/
theorem clearMark_credit (checked : State config Module) (count : CacheStats → CacheStats)
    (toReturn : List Nat) (response : Response) (address : Address) (way : Nat)
    (within : way < config.numWay) (found : CacheBlock)
    (isFound : checked.blockAt (config.getSetIndex address) way = found)
    (valid : found.valid = true) (useful dirty : Bool)
    (marked : useful = true → found.prefetch = true)
    (counts : ∀ stats, (count stats).pfIssued = stats.pfIssued ∧
      (count stats).pfUseful = (if useful then stats.pfUseful + 1 else stats.pfUseful) ∧
        (count stats).pfUseless = stats.pfUseless) :
    (((checked.countStats count).respond toReturn response).setBlock (config.getSetIndex address) way
      { found with dirty, prefetch := found.prefetch && !useful }).credit = checked.credit := by
  have replaced := ((checked.countStats count).respond toReturn response).setBlock_credit address way
    { found with dirty, prefetch := found.prefetch && !useful } within
  have sameBlock : ((checked.countStats count).respond toReturn response).blockAt
      (config.getSetIndex address) way = found := by
    unfold blockAt
    rw [respond_block]
    exact isFound
  obtain ⟨issued, usefuls, useless⟩ := counts checked.simStats
  have counted : (checked.countStats count).credit + (if useful then 1 else 0) = checked.credit := by
    unfold credit marks countStats
    dsimp only
    rw [issued, usefuls, useless]
    split
    · omega
    · omega
  have old : found.isPrefetched = found.prefetch := by
    unfold CacheBlock.isPrefetched
    rw [valid, Bool.true_and]
  have new : ({ found with dirty, prefetch := found.prefetch && !useful } :
      CacheBlock).isPrefetched = (found.prefetch && !useful) := by
    unfold CacheBlock.isPrefetched
    dsimp only
    rw [valid, Bool.true_and]
  rw [sameBlock, respond_credit, old, new] at replaced
  cases useful with
  | true =>
      rw [marked rfl] at replaced ⊢
      rw [Bool.not_true, Bool.and_false, Bool.toNat_false, Bool.toNat_true] at replaced
      rw [if_pos rfl] at counted
      rw [Bool.not_true, Bool.and_false]
      omega
  | false =>
      rw [if_neg Bool.false_ne_true] at counted
      rw [Bool.not_false, Bool.and_true] at replaced ⊢
      omega

theorem tryHit_credit (hooks : Modules Module) (state : State config Module)
    (handlePkt : TagLookup) : (tryHit hooks state handlePkt).2.credit = state.credit := by
  unfold tryHit
  dsimp only
  generalize (if config.shouldActivatePrefetcher handlePkt = true then _ else _ :
    Module × List PrefetchLine × BitVec 32) = asked
  have same := prefetchLines_credit { state with cpu := handlePkt.cpu } asked.2.1
  split
  · rename_i hit
    obtain ⟨within, holds⟩ := findWay_found _ _ _ (of_decide_eq_true hit)
    rw [Bool.and_eq_true] at holds
    refine Eq.trans (clearMark_credit _ _ _ _ handlePkt.address _ within _ ?_ holds.1 _ _ ?_ ?_) same
    · unfold blockAt
      dsimp only
      rw [prefetchLines_block]
    · intro useful
      rw [Bool.and_eq_true, Bool.and_eq_true] at useful
      exact useful.1.2
    · intro stats
      exact ⟨rfl, rfl, rfl⟩
  · exact same

/-! ### Misses -/

/-- A merged prefetch is counted as useful when its record loses the mark. -/
theorem mergeMiss_credit (state : State config Module) (index : Nat) (entry : Mshr)
    (handlePkt : TagLookup) (found : state.mshr[index]? = some entry) :
    state.credit ≤ (state.mergeMiss index entry handlePkt).credit +
      handlePkt.prefetchFromThis.toNat := by
  obtain ⟨before, after, split, assigned⟩ := Positions.split_at _ _ entry found
  have merged := entry.merge_prefetchFromThis (Mshr.ofTagLookup handlePkt state.currentTime)
  change _ = if handlePkt.type = .prefetch then _ else handlePkt.prefetchFromThis at merged
  have owned : ∀ record : Mshr, ownRecords (before ++ record :: after) =
      ownRecords before + (ownRecords after + record.prefetchFromThis.toNat) := by
    intro record
    rw [ownRecords_append, ownRecords_cons]
  unfold mergeMiss countMiss countStats withMshr credit marks
  dsimp only
  rw [assigned, owned, merged, split, owned]
  by_cases useful : entry.type = .prefetch ∧ handlePkt.type ≠ .prefetch ∧
      entry.prefetchFromThis = true
  · rw [if_pos useful, if_neg useful.2.1, useful.2.2, Bool.toNat_true]
    omega
  · rw [if_neg useful]
    by_cases prefetches : handlePkt.type = .prefetch
    · rw [if_pos prefetches]
      omega
    · rw [if_neg prefetches]
      omega

theorem forwardMiss_credit (state : State config Module) (handlePkt : TagLookup) :
    state.credit ≤ (state.forwardMiss handlePkt).2.credit +
      ((state.forwardMiss handlePkt).1 && handlePkt.prefetchFromThis).toNat := by
  unfold forwardMiss
  split
  · exact Int.le_add_of_nonneg_right (Int.natCast_nonneg _)
  · dsimp only
    split
    · exact Int.le_add_of_nonneg_right (Int.natCast_nonneg _)
    · rw [Bool.true_and]
      unfold countMiss countStats withMshr credit marks
      dsimp only
      split
      · rw [ownRecords_append, ownRecords_singleton]
        change _ ≤ ((_ : Nat) : Int) - ((_ + (_ + handlePkt.prefetchFromThis.toNat) + _ + _ : Nat) :
          Int) + _
        omega
      · omega

theorem handleMiss_credit (state : State config Module) (handlePkt : TagLookup) :
    state.credit ≤ (state.handleMiss handlePkt).2.credit +
      ((state.handleMiss handlePkt).1 && handlePkt.prefetchFromThis).toNat := by
  have entered : ({ state with cpu := handlePkt.cpu } : State config Module).credit =
      state.credit := rfl
  rw [← entered]
  unfold handleMiss
  dsimp only
  split
  · rename_i entry found
    exact mergeMiss_credit { state with cpu := handlePkt.cpu } _ entry handlePkt found
  · exact forwardMiss_credit { state with cpu := handlePkt.cpu } handlePkt

theorem doHandleMiss_credit (state : State config Module) (handlePkt : TagLookup) :
    state.credit ≤ (state.doHandleMiss handlePkt).2.credit +
      ((state.doHandleMiss handlePkt).1 && handlePkt.prefetchFromThis).toNat := by
  unfold doHandleMiss
  split
  · unfold handleWrite countMiss countStats credit marks
    dsimp only
    rw [Bool.true_and, ownRecords_append, ownRecords_singleton]
    change _ ≤ ((_ : Nat) : Int) - ((_ + (_ + handlePkt.prefetchFromThis.toNat) + _ : Nat) :
      Int) + _
    omega
  · exact state.handleMiss_credit handlePkt

/-! ### Returns and fills -/

theorem finishPacket_credit (state next : State config Module) (packet : Response)
    (ran : state.finishPacket packet = some next) : next.credit = state.credit := by
  obtain ⟨before, entry, after, promise, split, moved⟩ := state.finishPacket_effect next packet ran
  have kept := state.finishPacket_withMshr next packet ran
  have owned : ownRecords next.mshr = ownRecords state.mshr := by
    have same : ownRecords next.mshr =
        ownRecords (before ++ { entry with dataPromise := promise } :: after) := moved.countP_eq _
    rw [same, split, ownRecords_append, ownRecords_append, ownRecords_cons, ownRecords_cons]
  rw [kept]
  unfold credit marks withMshr
  dsimp only
  rw [owned]

theorem completeFill_credit (hooks : Modules Module) (state : State config Module)
    (fillMshr : Mshr) (way : Nat) (within : way ≤ config.numWay) :
    state.credit ≤ (completeFill hooks state fillMshr way).credit +
      fillMshr.prefetchFromThis.toNat := by
  unfold completeFill
  dsimp only
  rw [respond_credit]
  generalize hooks.prefetcherCacheFill _ _ _ _ _ _ _ = filled
  have same := prefetchLines_credit state filled.2.1
  by_cases bypass : way = config.numWay
  · rw [if_pos bypass, if_pos bypass]
    have counted : ∀ reached : State config Module, (countStats reached
        (fillStats config reached.currentTime fillMshr none)).credit = reached.credit :=
      fun _reached => rfl
    rw [counted]
    change state.credit ≤ (prefetchLines state filled.2.1).credit + _
    omega
  · rw [if_neg bypass, if_neg bypass]
    have inSet : way < config.numWay := Nat.lt_of_le_of_ne within bypass
    generalize hooks.replacementCacheFill _ _ _ _ _ _ _ _ = modules
    have installed := setBlock_credit { prefetchLines state filled.2.1 with modules }
      fillMshr.address way (fillMshr.fillBlock filled.2.2) inSet
    have sameBlock : State.blockAt { prefetchLines state filled.2.1 with modules }
        (config.getSetIndex fillMshr.address) way =
          state.blockAt (config.getSetIndex fillMshr.address) way := by
      unfold blockAt
      dsimp only
      rw [prefetchLines_block]
    have begun : State.credit { prefetchLines state filled.2.1 with modules } = state.credit := same
    have mark : (fillMshr.fillBlock filled.2.2).isPrefetched = fillMshr.prefetchFromThis :=
      Bool.true_and _
    rw [sameBlock, begun, mark] at installed
    have counted : ∀ (reached : State config Module) (victim : CacheBlock), (countStats reached
        (fillStats config reached.currentTime fillMshr (some victim))).credit +
          victim.isPrefetched.toNat = reached.credit := by
      intro reached victim
      unfold credit marks countStats fillStats
      dsimp only
      change _ - ((_ + (if victim.isPrefetched = true then _ else _) + _ + _ + _ + _ : Nat) : Int) +
        _ = _
      cases victim.isPrefetched with
      | false =>
          rw [if_neg Bool.false_ne_true, Bool.toNat_false]
          omega
      | true =>
          rw [if_pos rfl, Bool.toNat_true]
          omega
    have useless := counted (State.setBlock { prefetchLines state filled.2.1 with modules }
      (config.getSetIndex fillMshr.address) way (fillMshr.fillBlock filled.2.2))
      (state.blockAt (config.getSetIndex fillMshr.address) way)
    dsimp only at installed useless ⊢
    omega

theorem handleFill_credit (hooks : Modules Module) (state next : State config Module)
    (fillMshr : Mshr) (filled : Bool)
    (ran : handleFill hooks state fillMshr = some (filled, next)) :
    state.credit ≤ next.credit + (filled && fillMshr.prefetchFromThis).toNat := by
  obtain ⟨modules, way, ready, chosen, done, cpu, lowerLevel, kept⟩ :=
    handleFill_cases hooks state next fillMshr filled ran
  have same : ready.credit = state.credit := by
    rw [kept]
    rfl
  rcases done with ⟨refused, reached⟩ | ⟨accepted, reached⟩
  · rw [reached, same]
    omega
  · have within : way ≤ config.numWay := by
      rcases fillWay_within hooks state fillMshr modules way chosen with inSet | ⟨bypass, -⟩
      · exact Nat.le_of_lt inSet
      · exact Nat.le_of_eq bypass
    rw [reached, accepted, Bool.true_and, ← same]
    exact completeFill_credit hooks ready fillMshr way within

theorem fillSpan_credit (hooks : Modules Module) (state last : State config Module)
    (queue : List Mshr) (count : Nat) (ran : fillSpan hooks state queue = some (count, last)) :
    state.credit ≤ last.credit + ownRecords (queue.take count) := by
  induction queue generalizing state count with
  | nil =>
      cases ran
      omega
  | cons entry rest ih =>
      obtain ⟨⟨filled, next⟩, fill, remaining⟩ := Option.bind_eq_some_iff.mp ran
      have first := handleFill_credit hooks state next entry filled fill
      cases filled with
      | false =>
          cases remaining
          rw [Bool.false_and, Bool.toNat_false] at first
          omega
      | true =>
          obtain ⟨⟨others, reached⟩, filledRest, same⟩ := Option.map_eq_some_iff.mp remaining
          cases same
          have later := ih next others filledRest
          rw [List.take_succ_cons, ownRecords_cons]
          rw [Bool.true_and] at first
          omega

end State

namespace Pipeline

variable {config : OperateConfig} {Module : Type}

/-- The credit of the state, less the prefetches that are on their way to a tag check. -/
def credit (pipeline : Pipeline config Module) : Int :=
  pipeline.toState.credit - ownLookups pipeline.lookups

/-! ### Returns, translations and fills -/

theorem finishPackets_credit (pipeline next : Pipeline config Module)
    (ran : pipeline.finishPackets = some next) : next.credit = pipeline.credit := by
  obtain ⟨state, finished, same⟩ := Option.map_eq_some_iff.mp ran
  have kept := Queue.foldlM_invariant State.finishPacket
    (fun reached => reached.credit = pipeline.toState.credit) pipeline.lowerLevel.returned
    (fun reached packet _member last before step =>
      (reached.finishPacket_credit last packet step).trans before) pipeline.toState state rfl finished
  subst same
  exact congrArg (· - (ownLookups pipeline.lookups : Int)) kept

theorem finishTranslation_credit (pipeline : Pipeline config Module) (packet : Response) :
    (pipeline.finishTranslation packet).credit = pipeline.credit := by
  have moved : ownLookups (pipeline.finishTranslation packet).lookups =
      ownLookups (pipeline.lookups.map (translated config packet)) :=
    (pipeline.finishTranslation_lookups packet).symm.countP_eq _
  have kept : ownLookups (pipeline.lookups.map (translated config packet)) =
      ownLookups pipeline.lookups := by
    apply ownLookups_of_map
    rw [List.map_map]
    apply List.map_congr_left
    intro entry _member
    rw [Function.comp_apply, translated]
    split
    · rfl
    · rfl
  unfold credit
  rw [moved, kept]
  rfl

theorem finishTranslations_credit (pipeline : Pipeline config Module) :
    pipeline.finishTranslations.credit = pipeline.credit :=
  finishTranslations_invariant (fun reached => reached.credit = pipeline.credit)
    (fun reached packet before => (reached.finishTranslation_credit packet).trans before)
    (fun _reached _lowerTranslate before => before) pipeline rfl

theorem fillQueue_credit (hooks : Modules Module) (state last : State config.toConfig Module)
    (queue : List Mshr) (bandwidth count : Nat) (condition : Mshr → Bool)
    (ran : State.fillSpan hooks state (Queue.span bandwidth condition queue) = some (count, last)) :
    state.credit + ownRecords (queue.drop count) ≤ last.credit + ownRecords queue := by
  have within := (State.fillSpan_records hooks state last _ count ran).2
  have spent := State.fillSpan_credit hooks state last _ count ran
  obtain ⟨others, split⟩ := Queue.span_isPrefix bandwidth condition queue
  have among : (_ ++ others).take count = _ := List.take_append_of_le_length within
  rw [split] at among
  rw [← among] at spent
  have parts := ownRecords_append (queue.take count) (queue.drop count)
  rw [List.take_append_drop] at parts
  omega

theorem fillMshrs_credit (hooks : Modules Module) (pipeline next : Pipeline config Module)
    (filled : Nat) (ran : pipeline.fillMshrs hooks = some (filled, next)) :
    pipeline.credit ≤ next.credit := by
  obtain ⟨⟨count, last⟩, fills, same⟩ := Option.map_eq_some_iff.mp ran
  cases same
  have kept := (State.fillSpan_records hooks _ last _ _ fills).1.1
  have spent := fillQueue_credit hooks _ last _ _ _ _ fills
  unfold credit State.credit State.marks lookups at *
  dsimp only
  rw [kept] at spent ⊢
  omega

theorem fillWrites_credit (hooks : Modules Module) (pipeline next : Pipeline config Module)
    (bandwidth : Nat) (ran : pipeline.fillWrites hooks bandwidth = some next) :
    pipeline.credit ≤ next.credit := by
  obtain ⟨⟨count, last⟩, fills, same⟩ := Option.map_eq_some_iff.mp ran
  subst same
  have kept := (State.fillSpan_records hooks _ last _ _ fills).1.2
  have spent := fillQueue_credit hooks _ last _ _ _ _ fills
  unfold credit State.credit State.marks lookups at *
  dsimp only
  rw [kept] at spent ⊢
  omega

theorem serveReturns_credit (hooks : CycleModules Module) (pipeline next : Pipeline config Module)
    (ran : pipeline.serveReturns hooks = some next) : pipeline.credit ≤ next.credit := by
  obtain ⟨finished, finishes, fills⟩ := Option.bind_eq_some_iff.mp ran
  obtain ⟨⟨filled, middle⟩, mshrs, writes⟩ := Option.bind_eq_some_iff.mp fills
  have collided : pipeline.checkCollisions.credit = pipeline.credit := by
    obtain ⟨upperLevels, checked⟩ := pipeline.checkCollisions_shape
    rw [checked]
    rfl
  have returned := pipeline.checkCollisions.finishPackets_credit finished finishes
  have translated := finished.finishTranslations_credit
  have first := fillMshrs_credit hooks.toModules _ middle filled mshrs
  have second := fillWrites_credit hooks.toModules middle next _ writes
  omega

/-! ### New tag checks -/

theorem restartStash_credit (pipeline : Pipeline config Module) :
    pipeline.restartStash.pipeline.credit = pipeline.credit := by
  have kept := ownLookups_of_map (pipeline.restartStash_view (fun entry => entry.prefetchFromThis)
    (fun _entry => rfl))
  unfold credit
  rw [kept]
  rfl

theorem takeRequests_credit (avail : Bool) (perUpper : Nat) (intake : Intake config Module)
    (source : Nat × QueueName) :
    (takeRequests avail perUpper intake source).pipeline.credit = intake.pipeline.credit := by
  have joined : ∀ requests : List Request,
      ownLookups (requests.map (intake.pipeline.initiateRequest source.1)) = 0 := by
    intro requests
    apply List.countP_eq_zero.mpr
    intro entry member
    obtain ⟨request, _among, same⟩ := List.mem_map.mp member
    rw [← same]
    exact Bool.false_ne_true
  unfold takeRequests updateUpper credit lookups
  dsimp only
  rw [ownLookups_append, ownLookups_append, ownLookups_append, joined]
  rfl

theorem takeFromUpper_credit (avail : Bool) (intake : Intake config Module) :
    (takeFromUpper avail intake).pipeline.credit = intake.pipeline.credit :=
  takeFromUpper_invariant avail (fun reached => reached.pipeline.credit = intake.pipeline.credit)
    (fun perUpper reached source before =>
      (takeRequests_credit avail perUpper reached source).trans before) intake rfl

theorem takeInternal_credit (avail : Bool) (intake : Intake config Module) :
    (takeInternal avail intake).pipeline.credit = intake.pipeline.credit := by
  have split := Queue.span_append_beyond intake.remaining
    (fun entry : TagLookup => avail || entry.isTranslated) intake.pipeline.internalPq
  have initiated : ∀ prefetches : List TagLookup,
      ownLookups (prefetches.map intake.pipeline.initiateTagCheck) = ownLookups prefetches := by
    intro prefetches
    apply ownLookups_of_map
    rw [List.map_map]
    rfl
  have parts := congrArg ownLookups split
  rw [ownLookups_append] at parts
  unfold takeInternal credit State.credit State.marks lookups
  dsimp only
  rw [ownLookups_append, ownLookups_append, ownLookups_append, initiated]
  omega

theorem initiateTagChecks_credit (pipeline : Pipeline config Module) :
    pipeline.initiateTagChecks.pipeline.credit = pipeline.credit := by
  unfold initiateTagChecks
  dsimp only
  rw [takeInternal_credit, takeFromUpper_credit]
  exact pipeline.restartStash_credit

/-! ### Tag checks -/

theorem issueTranslations_credit (pipeline next : Pipeline config Module)
    (ran : pipeline.issueTranslations = some next) : next.credit = pipeline.credit := by
  obtain ⟨checks, stash⟩ := issueTranslations_view (fun entry => entry.prefetchFromThis)
    (fun _ _ => rfl) ran
  have kept : ownLookups next.lookups = ownLookups pipeline.lookups := by
    apply ownLookups_of_map
    unfold lookups
    rw [List.map_append, List.map_append, checks, stash]
  unfold credit
  rw [kept]
  obtain ⟨_checks, _stash, _channel, same⟩ := issueTranslations_shape pipeline next ran
  rw [same]

theorem stashUntranslated_credit (pipeline : Pipeline config Module) :
    pipeline.stashUntranslated.credit = pipeline.credit := by
  have moved : ownLookups pipeline.stashUntranslated.lookups = ownLookups pipeline.lookups :=
    pipeline.stashUntranslated_lookups.symm.countP_eq _
  unfold credit
  rw [moved]
  rfl

/-- A prefetch leaves the tag check with a hit, or with its mark in a record. -/
theorem performTagChecks_credit (hooks : Modules Module) (pipeline : Pipeline config Module) :
    pipeline.credit ≤ (pipeline.performTagChecks hooks).credit := by
  unfold performTagChecks
  dsimp only
  have split := congrArg ownLookups (Queue.span_append_beyond config.maxTag
    (fun entry => isReady pipeline.currentTime entry && entry.isTranslated)
    pipeline.inflightTagCheck)
  rw [ownLookups_append] at split
  revert split
  generalize Queue.span config.maxTag _ pipeline.inflightTagCheck = checks
  generalize Queue.beyond config.maxTag _ pipeline.inflightTagCheck = others
  intro split
  have parted : ownLookups _ = ownLookups checks :=
    (Queue.partition_perm (State.tryHit hooks) pipeline.toState checks).countP_eq _
  have checked : (Queue.partition (State.tryHit hooks) pipeline.toState checks).2.credit =
      pipeline.toState.credit :=
    Queue.partition_invariant (State.tryHit hooks)
      (fun reached => reached.credit = pipeline.toState.credit) checks
      (fun reached entry _member before => (State.tryHit_credit hooks reached entry).trans before)
      pipeline.toState rfl
  revert parted checked
  generalize Queue.partition (State.tryHit hooks) pipeline.toState checks = hits
  intro parted checked
  have missed : ownLookups _ = ownLookups hits.1.2 :=
    (Queue.partition_perm State.doHandleMiss hits.2 hits.1.2).countP_eq _
  have spent := Queue.partition_spends State.doHandleMiss State.credit
    (fun entry => entry.prefetchFromThis) State.doHandleMiss_credit hits.2 hits.1.2
  change _ ≤ _ + (ownLookups _ : Int) at spent
  rw [ownLookups_append] at parted missed
  unfold credit lookups
  dsimp only
  rw [ownLookups_append, ownLookups_append, ownLookups_append]
  omega

theorem prefetcherCycleOperate_credit (hooks : CycleModules Module)
    (pipeline : Pipeline config Module) :
    (pipeline.prefetcherCycleOperate hooks).credit = pipeline.credit :=
  congrArg (· - (ownLookups pipeline.lookups : Int))
    (pipeline.toState.prefetchLines_credit (hooks.prefetcherCycleOperate pipeline.modules).2)

theorem checkTags_credit (hooks : CycleModules Module) (pipeline next : Pipeline config Module)
    (ran : pipeline.checkTags hooks = some next) : pipeline.credit ≤ next.credit := by
  obtain ⟨issued, issues, same⟩ := Option.map_eq_some_iff.mp ran
  have translations := pipeline.issueTranslations_credit issued issues
  have stashed := issued.stashUntranslated_credit
  have checked := issued.stashUntranslated.performTagChecks_credit hooks.toModules
  have cycled := prefetcherCycleOperate_credit hooks
    (issued.stashUntranslated.performTagChecks hooks.toModules)
  rw [← same]
  omega

theorem operate_credit (hooks : CycleModules Module) (pipeline next : Pipeline config Module)
    (ran : pipeline.operate hooks = some next) : pipeline.credit ≤ next.credit := by
  obtain ⟨served, serves, checks⟩ := Option.bind_eq_some_iff.mp ran
  have returned := pipeline.serveReturns_credit hooks served serves
  have initiated := served.initiateTagChecks_credit
  have checked := served.initiateTagChecks.pipeline.checkTags_credit hooks next checks
  omega

end Pipeline

/-! ### Runs within a phase -/

/-- Whether a step begins no phase and invalidates no block. -/
def Step.staysInPhase {Module : Type} : Step Module → Bool
  | .beginPhase _ => false
  | .invalidateEntry _ => false
  | _ => true

def phases {config : OperateConfig} {Module : Type} (hooks : CycleModules Module) :
    Machine (Pipeline config Module) (Step Module) :=
  (cycles hooks).restrict (fun _pipeline label => label.staysInPhase = true)

def Mshr.isOwnPrefetch (record : Mshr) : Bool :=
  decide (record.type = .prefetch) && record.prefetchFromThis

namespace Pipeline

variable {config : OperateConfig} {Module : Type}

/-- The prefetches that were useful or useless, are in a block or in `MSHR`, or
still wait for their tag check. -/
def ownPrefetches (pipeline : Pipeline config Module) : Nat :=
  pipeline.simStats.pfUseful + pipeline.simStats.pfUseless +
    pipeline.block.countCells CacheBlock.isPrefetched +
      pipeline.mshr.countP Mshr.isOwnPrefetch +
        (ownLookups pipeline.internalPq + ownLookups pipeline.inflightTagCheck +
          ownLookups pipeline.translationStash)

theorem step_credit (hooks : CycleModules Module) (pipeline next : Pipeline config Module)
    (label : Step Module) (stays : label.staysInPhase = true)
    (stepped : pipeline.step hooks label = some next) : pipeline.credit ≤ next.credit := by
  cases label with
  | operate =>
      exact operate_credit hooks
        { pipeline with currentTime := pipeline.currentTime + config.clockPeriod } next stepped
  | upperLevels channels =>
      cases stepped
      exact Int.le_refl _
  | lowerQueues rq pq wq =>
      cases stepped
      exact Int.le_refl _
  | answer response =>
      cases stepped
      exact Int.le_refl _
  | translations channel =>
      cases stepped
      exact Int.le_refl _
  | branchOperate modules calls =>
      cases stepped
      have issued := pipeline.toState.prefetchLines_credit calls
      exact Int.sub_le_sub_right (Int.le_of_eq issued.symm) (ownLookups pipeline.lookups)
  | beginPhase warmup => cases stays
  | invalidateEntry invalAddr => cases stays

theorem credit_of_idle {pipeline : Pipeline config Module} (idle : Idle pipeline)
    (counted : pipeline.simStats = {}) : pipeline.credit = 0 := by
  unfold credit lookups State.credit State.marks
  rw [counted, idle.block, idle.mshr, idle.inflightWrites, idle.internalPq,
    idle.inflightTagCheck, idle.translationStash]
  have empty : (CArray.fill2 config.numSet config.numWay (default : CacheBlock)).countCells
      CacheBlock.isPrefetched = 0 := CArray.countCells_fill2 _ rfl
  change ((0 : Nat) : Int) - ((0 + 0 + (CArray.fill2 config.numSet config.numWay
    (default : CacheBlock)).countCells CacheBlock.isPrefetched + 0 + 0 + 0 : Nat) : Int) - 0 = 0
  rw [empty]
  rfl

/-- No issued prefetch is useful, useless or resident twice. -/
theorem phases_ownPrefetches (hooks : CycleModules Module) (start : Pipeline config Module)
    (idle : Idle start) (counted : start.simStats = {}) (labels : List (Step Module))
    (reached : Pipeline config Module) (ran : (phases hooks).run start labels = some reached) :
    reached.ownPrefetches ≤ reached.simStats.pfIssued := by
  have credit : 0 ≤ reached.credit := by
    apply (phases hooks).run_invariant (fun pipeline => 0 ≤ pipeline.credit) ?_ labels start
      reached (Int.le_of_eq (credit_of_idle idle counted).symm) ran
    intro pipeline label next before stepped
    obtain ⟨stays, moved⟩ := ((cycles hooks).restrict_step_iff _ _ _ _).mp stepped
    exact Int.le_trans before (step_credit hooks pipeline next label stays moved)
  have recorded : reached.mshr.countP Mshr.isOwnPrefetch ≤ ownRecords reached.mshr := by
    apply List.countP_mono_left
    intro record _member own
    exact (Bool.and_eq_true_iff.mp own).2
  have split := ownLookups_append reached.inflightTagCheck reached.translationStash
  unfold Pipeline.credit State.credit State.marks lookups at credit
  unfold ownPrefetches
  omega

end Pipeline

/-- Two prefetches are issued and loads of both blocks follow: one merges with
a miss in flight and one hits. -/
def twoPrefetches : List (Step Unit) :=
  [.branchOperate () [⟨0x40, true, 0⟩, ⟨0x80, true, 0⟩], .operate, .operate,
    .answer { address := 0x40, vAddress := 0, data := 0, pfMetadata := 0, instrDependOnMe := [] },
    .operate, .operate, .operate, .operate,
    .upperLevels (requestsAbove [{ address := 0x40 }, { address := 0x80 }] []), .operate, .operate]

private theorem twoPrefetches_useful :
    ((phases silentCycle).run idleCache twoPrefetches).any (fun reached =>
      decide (reached.simStats.pfUseful = 2)) = true := by
  decide +kernel

theorem phases_ownPrefetches_twoPrefetches :
    ∃ reached, (phases silentCycle).run idleCache twoPrefetches = some reached ∧
      reached.simStats.pfUseful = 2 ∧ reached.ownPrefetches ≤ reached.simStats.pfIssued := by
  obtain ⟨reached, ran, useful⟩ := (Option.any_eq_true _ _).mp twoPrefetches_useful
  exact ⟨reached, ran, of_decide_eq_true useful, Pipeline.phases_ownPrefetches silentCycle idleCache
    idleCache_idle rfl twoPrefetches reached ran⟩

end ChampSim.Cache

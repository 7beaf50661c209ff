/-
A cycle of a cache with its bandwidth counters.

`operate` states what a cycle does with numbers of requests that cannot become
negative. Here the same parts count with bandwidths, which throw when too much
is consumed, and the two agree: no counter throws. The tag checks in flight
stay within what the cache can look up during one hit latency.
-/

import ChampSim.Bandwidth
import ChampSim.Cache.Cycle

set_option autoImplicit false

namespace ChampSim.Cache

open Outcome (need need_some)

namespace Pipeline

variable {config : OperateConfig} {Module : Type}

/-! ### The parts that count -/

def countedFills (hooks : Modules Module) (pipeline : Pipeline config Module) :
    Except Fault (Pipeline config Module) := do
  let fillBw := Bandwidth.ofMaximum config.maxFill
  let mshrSpan ← Bandwidth.getSpanP pipeline.mshr fillBw (fillReady pipeline.currentTime)
  let (filled, state) ← need .stopped (State.fillSpan hooks pipeline.toState mshrSpan)
  let fillBw ← fillBw.consume filled
  let next : Pipeline config Module :=
    { pipeline with toState := { state with mshr := state.mshr.drop filled } }
  let writeSpan ← Bandwidth.getSpanP next.inflightWrites fillBw (fillReady next.currentTime)
  let (written, state) ← need .stopped (State.fillSpan hooks next.toState writeSpan)
  let _fillBw ← fillBw.consume written
  return { next with
    toState := { state with inflightWrites := state.inflightWrites.drop written } }

structure CountedIntake (config : OperateConfig) (Module : Type) where
  pipeline : Pipeline config Module
  initiateTagBw : Bandwidth

/-- `std::clamp`. -/
def clamp (value low high : Int) : Int :=
  if value < low then low else if high < value then high else value

def countedRestart (pipeline : Pipeline config Module) :
    Except Fault (CountedIntake config Module) := do
  let bandwidthFromTagChecks : Int :=
    config.maxTag * ((config.hitLatency / config.clockPeriod : Nat) : Int) -
      pipeline.inflightTagCheck.length
  let initiateTagBw := Bandwidth.ofMaximum (clamp bandwidthFromTagChecks 0 config.maxTag)
  let (restarted, stash, consumed) ← Bandwidth.transformWhileN pipeline.translationStash
    initiateTagBw (fun entry => entry.isTranslated) pipeline.initiateTagCheck
  let initiateTagBw ← initiateTagBw.consume consumed
  return {
    pipeline :=
      { pipeline with
        inflightTagCheck := pipeline.inflightTagCheck ++ restarted
        translationStash := stash }
    initiateTagBw := initiateTagBw }

def countedRequests (avail : Bool) (perUpperBandwidth : Int)
    (intake : CountedIntake config Module) (source : Nat × QueueName) :
    Except Fault (CountedIntake config Module) := do
  let pipeline := intake.pipeline
  let perUpperTagBw :=
    Bandwidth.ofMaximum (min perUpperBandwidth intake.initiateTagBw.amountRemaining)
  let (requests, queue, consumed) ← Bandwidth.transformWhileN
    ((pipeline.upperLevels source.1).queue source.2) perUpperTagBw
    (fun request => avail || request.isTranslated) (pipeline.initiateRequest source.1)
  let initiateTagBw ← intake.initiateTagBw.consume consumed
  return {
    pipeline :=
      { pipeline.updateUpper source.1 (fun channel => channel.withQueue queue source.2) with
        inflightTagCheck := pipeline.inflightTagCheck ++ requests }
    initiateTagBw := initiateTagBw }

def countedUpper (avail : Bool) (intake : CountedIntake config Module) :
    Except Fault (CountedIntake config Module) :=
  let upperLevels :=
    if 1 < intake.pipeline.upperOrder.length then intake.pipeline.upperOrder.rotate 1
    else intake.pipeline.upperOrder
  let perUpperBandwidth : Int :=
    if 1 ≤ upperLevels.length then
      max (intake.initiateTagBw.amountRemaining / (upperLevels.length : Int)) 1
    else 0
  (sources upperLevels).foldlM (countedRequests avail perUpperBandwidth)
    { intake with pipeline := { intake.pipeline with upperOrder := upperLevels } }

def countedInternal (avail : Bool) (intake : CountedIntake config Module) :
    Except Fault (CountedIntake config Module) := do
  let pipeline := intake.pipeline
  let (prefetches, queue, consumed) ← Bandwidth.transformWhileN pipeline.internalPq
    intake.initiateTagBw (fun entry => avail || entry.isTranslated) pipeline.initiateTagCheck
  let initiateTagBw ← intake.initiateTagBw.consume consumed
  return {
    pipeline :=
      { pipeline with
        inflightTagCheck := pipeline.inflightTagCheck ++ prefetches
        internalPq := queue }
    initiateTagBw := initiateTagBw }

def countedTagChecks (hooks : Modules Module) (pipeline : Pipeline config Module) :
    Except Fault (Pipeline config Module) := do
  let tagCheckBw := Bandwidth.ofMaximum config.maxTag
  let checkable := fun entry => isReady pipeline.currentTime entry && entry.isTranslated
  let ready ← Bandwidth.getSpanP pipeline.inflightTagCheck tagCheckBw checkable
  let hits := Queue.partition (State.tryHit hooks) pipeline.toState ready
  let misses := Queue.partition State.doHandleMiss hits.2 hits.1.2
  let _tagCheckBw ← tagCheckBw.consume ((hits.1.1.length + misses.1.1.length : Nat) : Int)
  return { pipeline with
    toState := misses.2
    inflightTagCheck := misses.1.2 ++ pipeline.inflightTagCheck.drop ready.length }

/-- `CACHE::operate` with its counters. -/
def countedOperate (hooks : CycleModules Module) (pipeline : Pipeline config Module) :
    Except Fault (Pipeline config Module) := do
  let returned ← need .stopped pipeline.checkCollisions.finishPackets
  let served ← returned.finishTranslations.countedFills hooks.toModules
  let avail := decide (served.translationStash.length < config.mshrSize)
  let restarted ← served.countedRestart
  let taken ← countedUpper avail restarted
  let intake ← countedInternal avail taken
  let issued ← need .stopped intake.pipeline.issueTranslations
  let checked ← issued.stashUntranslated.countedTagChecks hooks.toModules
  return checked.prefetcherCycleOperate hooks

/-! ### No counter throws -/

theorem countedFills_eq (hooks : Modules Module) (pipeline : Pipeline config Module) :
    pipeline.countedFills hooks = need .stopped (pipeline.performFills hooks) := by
  have full : (Bandwidth.ofMaximum config.maxFill).value = ((config.maxFill : Nat) : Int) := rfl
  unfold countedFills performFills fillMshrs
  dsimp only
  rw [Bandwidth.getSpanP_eq full, Option.bind_map]
  apply Outcome.need_bind
  rintro ⟨filled, state⟩ first
  have few := (State.fillSpan_records hooks _ _ _ _ first).2
  have within : filled ≤ config.maxFill := Nat.le_trans few (Queue.span_length_le _ _ _)
  obtain ⟨left, consumed, holds⟩ := Bandwidth.consume_within full within
  dsimp only
  rw [consumed]
  change (Bandwidth.getSpanP state.inflightWrites left (fillReady state.currentTime) >>= _) = _
  rw [Bandwidth.getSpanP_eq holds]
  apply Outcome.need_map
  rintro ⟨written, last⟩ second
  have fewer := (State.fillSpan_records hooks _ _ _ _ second).2
  have inside : written ≤ config.maxFill - filled :=
    Nat.le_trans fewer (Queue.span_length_le _ _ _)
  obtain ⟨after, spent, -⟩ := Bandwidth.consume_within holds inside
  dsimp only
  rw [spent]
  rfl

/-- The counted intake has the same cache, and as much bandwidth left. -/
structure CountedIntake.Counts (counted : CountedIntake config Module)
    (intake : Intake config Module) : Prop where
  pipeline : counted.pipeline = intake.pipeline
  bandwidth : counted.initiateTagBw.value = intake.remaining

theorem clamp_eq (pipeline : Pipeline config Module) :
    clamp (config.maxTag * ((config.hitLatency / config.clockPeriod : Nat) : Int) -
      pipeline.inflightTagCheck.length) 0 config.maxTag = pipeline.initiateBandwidth := by
  have cast : (config.maxTag : Int) * ((config.hitLatency / config.clockPeriod : Nat) : Int) =
      ((config.maxTag * (config.hitLatency / config.clockPeriod) : Nat) : Int) := by
    rw [Int.natCast_mul]
  unfold clamp initiateBandwidth
  rw [cast]
  split_ifs <;> omega

theorem countedRestart_counts (pipeline : Pipeline config Module) :
    ∃ counted, pipeline.countedRestart = .ok counted ∧ counted.Counts pipeline.restartStash := by
  have room : (Bandwidth.ofMaximum (clamp (config.maxTag *
      ((config.hitLatency / config.clockPeriod : Nat) : Int) - pipeline.inflightTagCheck.length)
      0 config.maxTag)).value = pipeline.initiateBandwidth := pipeline.clamp_eq
  obtain ⟨left, consumed, holds⟩ := Bandwidth.consume_within room
    (Queue.span_length_le pipeline.initiateBandwidth (fun entry : TagLookup => entry.isTranslated)
      pipeline.translationStash)
  unfold countedRestart
  dsimp only
  rw [Bandwidth.transformWhileN_eq room]
  change ∃ counted, (Bandwidth.consume _ _ >>= _) = _ ∧ _
  rw [consumed]
  exact ⟨_, rfl, rfl, holds⟩

theorem countedRequests_counts {counted : CountedIntake config Module}
    {intake : Intake config Module} (counts : counted.Counts intake) (avail : Bool)
    (perUpper : Nat) (source : Nat × QueueName) :
    ∃ next, countedRequests avail perUpper counted source = .ok next ∧
      next.Counts (takeRequests avail perUpper intake source) := by
  obtain ⟨pipeline, bandwidth⟩ := counts
  have share : (Bandwidth.ofMaximum (min (perUpper : Int)
      counted.initiateTagBw.amountRemaining)).value = ((min perUpper intake.remaining : Nat) : Int) := by
    change min (perUpper : Int) counted.initiateTagBw.value = _
    omega
  have few := Queue.span_length_le (min perUpper intake.remaining)
    (fun request : Request => avail || request.isTranslated)
    ((intake.pipeline.upperLevels source.1).queue source.2)
  obtain ⟨left, consumed, holds⟩ := Bandwidth.consume_within bandwidth
    (Nat.le_trans few (Nat.min_le_right _ _))
  unfold countedRequests
  dsimp only
  rw [pipeline, Bandwidth.transformWhileN_eq share]
  change ∃ next, (Bandwidth.consume _ _ >>= _) = _ ∧ _
  rw [consumed]
  exact ⟨_, rfl, rfl, holds⟩

theorem countedSources_counts (avail : Bool) (perUpper : Nat) (queues : List (Nat × QueueName))
    {counted : CountedIntake config Module} {intake : Intake config Module}
    (counts : counted.Counts intake) :
    ∃ last, queues.foldlM (countedRequests avail perUpper) counted = .ok last ∧
      last.Counts (queues.foldl (takeRequests avail perUpper) intake) := by
  induction queues generalizing counted intake with
  | nil => exact ⟨counted, rfl, counts⟩
  | cons source rest ih =>
      obtain ⟨next, taken, agrees⟩ := countedRequests_counts counts avail perUpper source
      obtain ⟨last, others, done⟩ := ih agrees
      refine ⟨last, ?_, done⟩
      rw [List.foldlM_cons, taken]
      exact others

theorem countedUpper_counts {counted : CountedIntake config Module}
    {intake : Intake config Module} (counts : counted.Counts intake) (avail : Bool) :
    ∃ next, countedUpper avail counted = .ok next ∧
      next.Counts (takeFromUpper avail (rotateUpper intake)) := by
  obtain ⟨pipeline, bandwidth⟩ := counts
  unfold countedUpper takeFromUpper rotateUpper
  dsimp only
  rw [pipeline]
  generalize (if 1 < intake.pipeline.upperOrder.length then _ else _) = order
  have share : (if 1 ≤ order.length then
      max (counted.initiateTagBw.amountRemaining / (order.length : Int)) 1 else 0) =
        (((if 1 ≤ order.length then max (intake.remaining / order.length) 1 else 0) : Nat) : Int) := by
    change (if 1 ≤ order.length then max (counted.initiateTagBw.value / (order.length : Int)) 1
      else 0) = _
    rw [bandwidth]
    split
    · rw [← Int.natCast_ediv]
      omega
    · rfl
  rw [share]
  exact countedSources_counts avail _ (sources order) ⟨rfl, bandwidth⟩

theorem countedInternal_counts {counted : CountedIntake config Module}
    {intake : Intake config Module} (counts : counted.Counts intake) (avail : Bool) :
    ∃ next, countedInternal avail counted = .ok next ∧ next.Counts (takeInternal avail intake) := by
  obtain ⟨pipeline, bandwidth⟩ := counts
  obtain ⟨left, consumed, holds⟩ := Bandwidth.consume_within bandwidth
    (Queue.span_length_le intake.remaining (fun entry : TagLookup => avail || entry.isTranslated)
      intake.pipeline.internalPq)
  unfold countedInternal
  dsimp only
  rw [pipeline, Bandwidth.transformWhileN_eq bandwidth]
  change ∃ next, (Bandwidth.consume _ _ >>= _) = _ ∧ _
  rw [consumed]
  exact ⟨_, rfl, rfl, holds⟩

/-- Each packet that is checked hits, or its miss is accepted or refused. -/
theorem checked_length (hooks : Modules Module) (state : State config.toConfig Module)
    (ready : List TagLookup) :
    let hits := Queue.partition (State.tryHit hooks) state ready
    let misses := Queue.partition State.doHandleMiss hits.2 hits.1.2
    hits.1.1.length + misses.1.1.length + misses.1.2.length = ready.length := by
  intro hits misses
  have first := (Queue.partition_perm (State.tryHit hooks) state ready).length_eq
  have second := (Queue.partition_perm State.doHandleMiss hits.2 hits.1.2).length_eq
  rw [List.length_append] at first second
  rw [Nat.add_assoc, second]
  exact first

theorem countedTagChecks_eq (hooks : Modules Module) (pipeline : Pipeline config Module) :
    pipeline.countedTagChecks hooks = .ok (pipeline.performTagChecks hooks) := by
  have full : (Bandwidth.ofMaximum config.maxTag).value = ((config.maxTag : Nat) : Int) := rfl
  unfold countedTagChecks performTagChecks
  dsimp only
  rw [Bandwidth.getSpanP_eq full]
  generalize fits : Queue.span config.maxTag (fun entry : TagLookup =>
    isReady pipeline.currentTime entry && entry.isTranslated) pipeline.inflightTagCheck = ready
  have few : ready.length ≤ config.maxTag := fits ▸ Queue.span_length_le _ _ _
  have checked := checked_length hooks pipeline.toState ready
  dsimp only at checked
  have finished : (Queue.partition (State.tryHit hooks) pipeline.toState ready).1.1.length +
      (Queue.partition State.doHandleMiss
        (Queue.partition (State.tryHit hooks) pipeline.toState ready).2
        (Queue.partition (State.tryHit hooks) pipeline.toState ready).1.2).1.1.length ≤
          config.maxTag := by
    omega
  obtain ⟨left, consumed, -⟩ := Bandwidth.consume_within full finished
  change (Bandwidth.consume _ _ >>= _) = _
  rw [consumed]
  unfold Queue.beyond
  rw [fits]
  rfl

/-- The counters change nothing: a cycle stops only where it would stop without them. -/
theorem countedOperate_eq (hooks : CycleModules Module) (pipeline : Pipeline config Module) :
    pipeline.countedOperate hooks = need .stopped (pipeline.operate hooks) := by
  unfold countedOperate operate serveReturns
  rw [Option.bind_assoc]
  apply Outcome.need_bind
  intro returned _returns
  rw [countedFills_eq]
  apply Outcome.need_bind
  intro served _serves
  obtain ⟨restarted, restarts, started⟩ := served.countedRestart_counts
  obtain ⟨taken, takes, above⟩ := countedUpper_counts started
    (decide (served.translationStash.length < config.mshrSize))
  obtain ⟨intake, prefetches, inside⟩ := countedInternal_counts above
    (decide (served.translationStash.length < config.mshrSize))
  dsimp only
  rw [restarts]
  change (countedUpper _ restarted >>= _) = _
  rw [takes]
  change (countedInternal _ taken >>= _) = _
  rw [prefetches]
  change (need Fault.stopped intake.pipeline.issueTranslations >>= _) = _
  rw [inside.pipeline]
  apply Outcome.need_map
  intro issued _issues
  rw [countedTagChecks_eq]
  rfl

/-! ### Tag checks in flight -/

/-- No more tag checks are in flight than the cache starts in one hit latency. -/
def TagChecksFit (pipeline : Pipeline config Module) : Prop :=
  pipeline.inflightTagCheck.length ≤ config.maxTag * (config.hitLatency / config.clockPeriod)

/-- The tag checks in flight and the bandwidth that remains. -/
def Intake.claimed (intake : Intake config Module) : Nat :=
  intake.pipeline.inflightTagCheck.length + intake.remaining

theorem restartStash_claimed (pipeline : Pipeline config Module) :
    pipeline.restartStash.claimed =
      pipeline.inflightTagCheck.length + pipeline.initiateBandwidth := by
  have few := Queue.span_length_le pipeline.initiateBandwidth
    (fun entry : TagLookup => entry.isTranslated) pipeline.translationStash
  unfold Intake.claimed restartStash
  dsimp only
  rw [List.length_append, List.length_map]
  omega

theorem takeRequests_claimed (avail : Bool) (perUpper : Nat) (intake : Intake config Module)
    (source : Nat × QueueName) :
    (takeRequests avail perUpper intake source).claimed = intake.claimed := by
  have few := Queue.span_length_le (min perUpper intake.remaining)
    (fun request : Request => avail || request.isTranslated)
    ((intake.pipeline.upperLevels source.1).queue source.2)
  unfold Intake.claimed takeRequests
  dsimp only
  rw [List.length_append, List.length_map]
  omega

theorem takeFromUpper_claimed (avail : Bool) (intake : Intake config Module) :
    (takeFromUpper avail intake).claimed = intake.claimed :=
  takeFromUpper_invariant avail (fun reached => reached.claimed = intake.claimed)
    (fun perUpper reached source before =>
      (takeRequests_claimed avail perUpper reached source).trans before) intake rfl

theorem takeInternal_claimed (avail : Bool) (intake : Intake config Module) :
    (takeInternal avail intake).claimed = intake.claimed := by
  have few := Queue.span_length_le intake.remaining
    (fun entry : TagLookup => avail || entry.isTranslated) intake.pipeline.internalPq
  unfold Intake.claimed takeInternal
  dsimp only
  rw [List.length_append, List.length_map]
  omega

theorem initiateTagChecks_claimed (pipeline : Pipeline config Module) :
    pipeline.initiateTagChecks.claimed =
      pipeline.inflightTagCheck.length + pipeline.initiateBandwidth := by
  unfold initiateTagChecks
  dsimp only
  rw [takeInternal_claimed, takeFromUpper_claimed]
  exact pipeline.restartStash_claimed

theorem initiateTagChecks_fit {pipeline : Pipeline config Module} (fit : pipeline.TagChecksFit) :
    pipeline.initiateTagChecks.pipeline.TagChecksFit := by
  have claimed := pipeline.initiateTagChecks_claimed
  unfold Intake.claimed initiateBandwidth at claimed
  unfold TagChecksFit at fit ⊢
  omega

theorem finishTranslations_checks (pipeline : Pipeline config Module) :
    pipeline.finishTranslations.inflightTagCheck.length = pipeline.inflightTagCheck.length :=
  finishTranslations_invariant
    (fun reached => reached.inflightTagCheck.length = pipeline.inflightTagCheck.length)
    (fun _reached _packet before => (List.length_map _).trans before)
    (fun _reached _lowerTranslate before => before) pipeline rfl

theorem checkTags_fewer (hooks : CycleModules Module) (pipeline next : Pipeline config Module)
    (ran : pipeline.checkTags hooks = some next) :
    next.inflightTagCheck.length ≤ pipeline.inflightTagCheck.length := by
  obtain ⟨issued, issues, done⟩ := Option.map_eq_some_iff.mp ran
  have length : issued.inflightTagCheck.length = pipeline.inflightTagCheck.length := by
    have same := congrArg List.length
      (issueTranslations_view (fun _entry => ()) (fun _ _ => rfl) issues).1
    rw [List.length_map, List.length_map] at same
    exact same
  have stashed : issued.stashUntranslated.inflightTagCheck.length ≤
      issued.inflightTagCheck.length := List.length_filter_le _ _
  have checked : (issued.stashUntranslated.performTagChecks hooks.toModules).inflightTagCheck.length ≤
      issued.stashUntranslated.inflightTagCheck.length := by
    generalize issued.stashUntranslated = ready
    unfold performTagChecks
    dsimp only
    have whole := congrArg List.length (Queue.span_append_beyond config.maxTag
      (fun entry : TagLookup => isReady ready.currentTime entry && entry.isTranslated)
      ready.inflightTagCheck)
    generalize Queue.span config.maxTag (fun entry : TagLookup =>
      isReady ready.currentTime entry && entry.isTranslated) ready.inflightTagCheck = span at whole ⊢
    have answered := checked_length hooks.toModules ready.toState span
    dsimp only at answered
    rw [List.length_append] at whole ⊢
    omega
  have cycled : next.inflightTagCheck =
      (issued.stashUntranslated.performTagChecks hooks.toModules).inflightTagCheck := by
    rw [← done]
    rfl
  rw [cycled]
  omega

theorem operate_fit (hooks : CycleModules Module) (pipeline next : Pipeline config Module)
    (fit : pipeline.TagChecksFit) (ran : operate hooks pipeline = some next) :
    next.TagChecksFit := by
  obtain ⟨ready, served, fillStart, fills, checks⟩ := operate_parts hooks pipeline next ran
  obtain ⟨finished, finishes, translated⟩ := Option.map_eq_some_iff.mp fillStart
  have servedLength : served.inflightTagCheck.length = pipeline.inflightTagCheck.length := by
    rw [performFills_shape hooks.toModules ready served fills]
    change ready.inflightTagCheck.length = _
    rw [← translated, finishTranslations_checks, returnPackets_shape pipeline finished finishes]
  have servedFit : served.TagChecksFit := by
    unfold TagChecksFit
    rw [servedLength]
    exact fit
  exact Nat.le_trans (checkTags_fewer hooks _ next checks) (initiateTagChecks_fit servedFit)

/-! ### Runs -/

def countedStep (hooks : CycleModules Module) (pipeline : Pipeline config Module)
    (label : Step Module) : Except Fault (Pipeline config Module) :=
  match label with
  | .operate =>
      countedOperate hooks { pipeline with currentTime := pipeline.currentTime + config.clockPeriod }
  | _ => need .stopped (pipeline.step hooks label)

theorem countedStep_eq (hooks : CycleModules Module) (pipeline : Pipeline config Module)
    (label : Step Module) :
    pipeline.countedStep hooks label = need .stopped (pipeline.step hooks label) := by
  cases label with
  | operate => exact countedOperate_eq hooks _
  | upperLevels channels => rfl
  | lowerQueues rq pq wq => rfl
  | answer response => rfl
  | translations channel => rfl
  | branchOperate modules calls => rfl
  | beginPhase warmup => rfl
  | invalidateEntry invalAddr => rfl

theorem step_fit (hooks : CycleModules Module) (pipeline next : Pipeline config Module)
    (label : Step Module) (fit : pipeline.TagChecksFit)
    (stepped : pipeline.step hooks label = some next) : next.TagChecksFit := by
  by_cases cycled : label = .operate
  · subst cycled
    refine operate_fit hooks _ next ?_ stepped
    exact fit
  · unfold TagChecksFit
    rw [(step_lookups hooks pipeline next label cycled stepped).1]
    exact fit

/-- No bandwidth of a run throws, and from a cache whose tag checks fit they
always do. -/
theorem countedSteps_fit (hooks : CycleModules Module) (start : Pipeline config Module)
    (labels : List (Step Module)) :
    Outcome.Ends (fun fault => fault ≠ .rangeError) (labels.foldlM (countedStep hooks) start)
      (fun finish => start.TagChecksFit → finish.TagChecksFit) := by
  apply Outcome.foldlM_ends (countedStep hooks)
    (fun finish => start.TagChecksFit → finish.TagChecksFit) labels ?_ start id
  intro pipeline label _member kept
  have stops : Fault.stopped ≠ Fault.rangeError := by decide
  have ends := @Outcome.need_value _ _ (fun fault => fault ≠ Fault.rangeError) Fault.stopped stops
    (pipeline.step hooks label)
  rw [countedStep_eq]
  apply ends.mono
  intro next stepped fit
  exact step_fit hooks pipeline next label (kept fit) stepped

end Pipeline

end ChampSim.Cache

/-
Runs of a cache, cycle by cycle.

Between two cycles the channels around the cache change as the other levels
please: requests join the queues above, the level below takes requests and
returns packets, translations come back. A prefetcher may also be told of a
branch, and a phase may begin.
-/

import ChampSim.Cache.Operate
import ChampSim.Cache.Effects
import ChampSim.Cache.Dirty

set_option autoImplicit false

namespace ChampSim.Cache

open Transition

inductive Step (Module : Type) where
  | operate
  | upperLevels (channels : Nat → Channel)
  | lowerQueues (rq pq wq : List Request)
  | answer (response : Response)
  | translations (channel : Channel)
  | branchOperate (modules : Module) (calls : List PrefetchLine)
  | beginPhase (warmup : Bool)
  | invalidateEntry (invalAddr : Address)

namespace Pipeline

variable {config : OperateConfig} {Module : Type}

def invalidateEntry (pipeline : Pipeline config Module) (invalAddr : Address) :
    Pipeline config Module :=
  let set := config.getSetIndex invalAddr
  let way := pipeline.findWay set (fun block => config.matchesAddress invalAddr block.address)
  if way = config.numWay then pipeline
  else
    { pipeline with
      toState := pipeline.setBlock set way { pipeline.blockAt set way with valid := false } }

/-- `operable::_operate`. -/
def cycle (hooks : CycleModules Module) (pipeline : Pipeline config Module) :
    Option (Pipeline config Module) :=
  operate hooks { pipeline with currentTime := pipeline.currentTime + config.clockPeriod }

def step (hooks : CycleModules Module) (pipeline : Pipeline config Module) :
    Step Module → Option (Pipeline config Module)
  | .operate => pipeline.cycle hooks
  | .upperLevels channels => some { pipeline with upperLevels := channels }
  | .lowerQueues rq pq wq =>
      some { pipeline with lowerLevel := { pipeline.lowerLevel with rq, pq, wq } }
  | .answer response =>
      some { pipeline with lowerLevel := pipeline.lowerLevel.pushReturned response }
  | .translations channel =>
      some { pipeline with lowerTranslate := pipeline.lowerTranslate.map (fun _ => channel) }
  | .branchOperate modules calls =>
      some { pipeline with toState := { pipeline.toState.prefetchLines calls with modules } }
  | .beginPhase warmup => some { pipeline with warmup, simStats := {} }
  | .invalidateEntry invalAddr => some (pipeline.invalidateEntry invalAddr)

end Pipeline

namespace Pipeline

variable {config : OperateConfig} {Module : Type}

theorem invalidateEntry_shape (pipeline : Pipeline config Module) (invalAddr : Address) :
    ∃ block, pipeline.invalidateEntry invalAddr = { pipeline with block } := by
  unfold invalidateEntry
  dsimp only
  split
  · exact ⟨pipeline.block, rfl⟩
  · exact ⟨_, rfl⟩

theorem step_lookups (hooks : CycleModules Module) (pipeline next : Pipeline config Module)
    (label : Step Module) (other : label ≠ .operate)
    (stepped : pipeline.step hooks label = some next) :
    next.inflightTagCheck = pipeline.inflightTagCheck ∧
      next.translationStash = pipeline.translationStash := by
  cases label with
  | operate => exact absurd rfl other
  | branchOperate modules calls =>
      cases stepped
      obtain ⟨added, simStats, -, asked⟩ := pipeline.toState.prefetchLines_shape calls
      rw [asked]
      exact ⟨rfl, rfl⟩
  | invalidateEntry invalAddr =>
      cases stepped
      obtain ⟨block, same⟩ := pipeline.invalidateEntry_shape invalAddr
      rw [same]
      exact ⟨rfl, rfl⟩
  | upperLevels channels =>
      cases stepped
      exact ⟨rfl, rfl⟩
  | lowerQueues rq pq wq =>
      cases stepped
      exact ⟨rfl, rfl⟩
  | answer response =>
      cases stepped
      exact ⟨rfl, rfl⟩
  | translations channel =>
      cases stepped
      exact ⟨rfl, rfl⟩
  | beginPhase warmup =>
      cases stepped
      exact ⟨rfl, rfl⟩

end Pipeline

def cycles {config : OperateConfig} {Module : Type} (hooks : CycleModules Module) :
    Machine (Pipeline config Module) (Step Module) where
  step := Pipeline.step hooks

structure Idle {config : OperateConfig} {Module : Type} (pipeline : Pipeline config Module) :
    Prop where
  block : pipeline.block = CArray.fill2 _ _ {}
  mshr : pipeline.mshr = []
  inflightWrites : pipeline.inflightWrites = []
  inflightTagCheck : pipeline.inflightTagCheck = []
  translationStash : pipeline.translationStash = []
  internalPq : pipeline.internalPq = []
  returned : pipeline.lowerLevel.returned = []

namespace State

variable {config : Config} {Module : Type}

theorem fillSpan_invariant (hooks : Modules Module) (Invariant : State config Module → Prop)
    (queue : List Mshr)
    (preserved : ∀ state entry, entry ∈ queue → ∀ filled next, Invariant state →
      FillEffect state entry filled next → Invariant next)
    (state : State config Module) (count : Nat) (last : State config Module)
    (initial : Invariant state) (ran : fillSpan hooks state queue = some (count, last)) :
    Invariant last ∧ count ≤ queue.length := by
  induction queue generalizing state count with
  | nil =>
      cases ran
      exact ⟨initial, Nat.le_refl 0⟩
  | cons entry rest ih =>
      obtain ⟨⟨filled, next⟩, fill, remaining⟩ := Option.bind_eq_some_iff.mp ran
      have kept := preserved state entry List.mem_cons_self filled next initial
        (handleFill_effect hooks state next entry filled fill)
      cases filled with
      | false =>
          cases remaining
          exact ⟨kept, Nat.zero_le _⟩
      | true =>
          obtain ⟨⟨others, reached⟩, filledRest, same⟩ := Option.map_eq_some_iff.mp remaining
          cases same
          have further := ih (fun other present member =>
            preserved other present (List.mem_cons_of_mem entry member)) next others kept filledRest
          exact ⟨further.1, Nat.succ_le_succ further.2⟩

theorem finishPacket_withMshr (state next : State config Module) (packet : Response)
    (ran : state.finishPacket packet = some next) : next = state.withMshr next.mshr := by
  unfold finishPacket at ran
  dsimp only at ran
  split at ran
  · cases ran
  · obtain ⟨swapped, _moved, same⟩ := Option.map_eq_some_iff.mp ran
    rw [← same]
    rfl

theorem finishEach_withMshr (state next : State config Module) (packets : List Response)
    (ran : packets.foldlM State.finishPacket state = some next) :
    next = state.withMshr next.mshr := by
  induction packets generalizing state with
  | nil =>
      cases ran
      rfl
  | cons packet rest ih =>
      obtain ⟨middle, first, others⟩ := Option.bind_eq_some_iff.mp ran
      rw [ih middle others, state.finishPacket_withMshr middle packet first]
      rfl

/-- Fills leave the records to the cycle, which erases the filled ones. -/
theorem fillSpan_records (hooks : Modules Module) (state last : State config Module)
    (queue : List Mshr) (count : Nat) (ran : fillSpan hooks state queue = some (count, last)) :
    (last.mshr = state.mshr ∧ last.inflightWrites = state.inflightWrites) ∧
      count ≤ queue.length := by
  apply fillSpan_invariant hooks (fun reached => reached.mshr = state.mshr ∧
    reached.inflightWrites = state.inflightWrites) queue ?_ state count last ⟨rfl, rfl⟩ ran
  intro reached entry _member filled next kept effect
  cases effect with
  | refused => exact kept
  | bypassed => exact kept
  | installed => exact kept

theorem doHandleMiss_cases (state : State config Module) (handlePkt : TagLookup)
    (Outcome : Bool × State config Module → Prop)
    (written : handlePkt.type = .write → Outcome (state.handleWrite handlePkt))
    (missed : ∀ accepted next, MissStep state handlePkt accepted next → Outcome (accepted, next)) :
    Outcome (state.doHandleMiss handlePkt) := by
  unfold doHandleMiss
  split
  · rename_i writes
    exact written writes.1
  · exact missed _ _ (state.handleMiss_step handlePkt)

theorem doHandleMiss_frame (state : State config Module) (handlePkt : TagLookup) :
    (state.doHandleMiss handlePkt).2.modules = state.modules ∧
      (state.doHandleMiss handlePkt).2.currentTime = state.currentTime ∧
      (state.doHandleMiss handlePkt).2.internalPq = state.internalPq := by
  apply state.doHandleMiss_cases handlePkt (fun missed => missed.2.modules = state.modules ∧
    missed.2.currentTime = state.currentTime ∧ missed.2.internalPq = state.internalPq)
  · intro _written
    exact ⟨rfl, rfl, rfl⟩
  · intro accepted next step
    cases step with
    | merged => exact ⟨rfl, rfl, rfl⟩
    | refused => exact ⟨rfl, rfl, rfl⟩
    | forwarded => exact ⟨rfl, rfl, rfl⟩

end State

namespace Pipeline

variable {config : OperateConfig} {Module : Type}

/-! ### What each part of a cycle may change -/

theorem updateUppers_shape (pipeline : Pipeline config Module) (order : List Nat)
    (change : Nat → Channel → Channel) :
    ∃ upperLevels, order.foldl (fun changed level => changed.updateUpper level (change level))
      pipeline = { pipeline with upperLevels } := by
  induction order generalizing pipeline with
  | nil => exact ⟨pipeline.upperLevels, rfl⟩
  | cons level rest ih => exact ih (pipeline.updateUpper level (change level))

theorem checkCollisions_shape (pipeline : Pipeline config Module) :
    ∃ upperLevels, pipeline.checkCollisions = { pipeline with upperLevels } :=
  pipeline.updateUppers_shape pipeline.upperOrder _

theorem returnPackets_shape (pipeline returned : Pipeline config Module)
    (ran : pipeline.checkCollisions.finishPackets = some returned) :
    returned = { pipeline with toState := returned.toState } := by
  obtain ⟨upperLevels, checked⟩ := pipeline.checkCollisions_shape
  obtain ⟨state, -, same⟩ := Option.map_eq_some_iff.mp ran
  rw [← same, checked]

/-- What every translation and the emptied channel keep, finishing the
translations keeps. -/
theorem finishTranslations_invariant (Invariant : Pipeline config Module → Prop)
    (preserved : ∀ reached packet, Invariant reached → Invariant (reached.finishTranslation packet))
    (erased : ∀ reached lowerTranslate, Invariant reached →
      Invariant { reached with lowerTranslate })
    (pipeline : Pipeline config Module) (initial : Invariant pipeline) :
    Invariant pipeline.finishTranslations := by
  unfold finishTranslations
  split
  · exact initial
  · rename_i channel present
    clear present
    apply erased
    generalize channel.returned = packets
    induction packets generalizing pipeline with
    | nil => exact initial
    | cons packet rest ih => exact ih _ (preserved pipeline packet initial)

theorem finishEach_shape (pipeline : Pipeline config Module) (packets : List Response) :
    ∃ translationStash inflightTagCheck, packets.foldl finishTranslation pipeline =
      { pipeline with translationStash, inflightTagCheck } := by
  induction packets generalizing pipeline with
  | nil => exact ⟨_, _, rfl⟩
  | cons packet rest ih => exact ih (pipeline.finishTranslation packet)

theorem finishTranslations_shape (pipeline : Pipeline config Module) :
    ∃ translationStash inflightTagCheck lowerTranslate, pipeline.finishTranslations =
      { pipeline with translationStash, inflightTagCheck, lowerTranslate } := by
  unfold finishTranslations
  split
  · exact ⟨_, _, _, rfl⟩
  · rename_i channel _present
    obtain ⟨translationStash, inflightTagCheck, finished⟩ :=
      pipeline.finishEach_shape channel.returned
    rw [finished]
    exact ⟨_, _, _, rfl⟩

theorem takeRequests_shape (avail : Bool) (perUpper : Nat) (intake : Intake config Module)
    (source : Nat × QueueName) :
    ∃ upperLevels joined, (takeRequests avail perUpper intake source).pipeline =
      { intake.pipeline with
        upperLevels
        inflightTagCheck := intake.pipeline.inflightTagCheck ++ joined } :=
  ⟨_, _, rfl⟩

/-- What the requests of every queue above keep, taking from above keeps. -/
theorem takeFromUpper_invariant (avail : Bool) (Invariant : Intake config Module → Prop)
    (preserved : ∀ perUpper intake source, Invariant intake →
      Invariant (takeRequests avail perUpper intake source))
    (intake : Intake config Module) (initial : Invariant intake) :
    Invariant (takeFromUpper avail intake) := by
  unfold takeFromUpper
  dsimp only
  generalize sources intake.pipeline.upperOrder = queues
  generalize (if 1 ≤ intake.pipeline.upperOrder.length then _ else 0) = perUpper
  induction queues generalizing intake with
  | nil => exact initial
  | cons source rest ih => exact ih _ (preserved perUpper intake source initial)

/-- Requests from above join behind the packets that are looked up already. -/
theorem takeFromUpper_shape (avail : Bool) (intake : Intake config Module) :
    ∃ upperLevels joined, (takeFromUpper avail intake).pipeline =
      { intake.pipeline with
        upperLevels
        inflightTagCheck := intake.pipeline.inflightTagCheck ++ joined } := by
  apply takeFromUpper_invariant avail (fun reached => ∃ upperLevels joined, reached.pipeline =
    { intake.pipeline with
      upperLevels
      inflightTagCheck := intake.pipeline.inflightTagCheck ++ joined })
  · intro perUpper reached source before
    obtain ⟨_upperLevels, joined, same⟩ := before
    obtain ⟨upperLevels, more, taken⟩ := takeRequests_shape avail perUpper reached source
    refine ⟨upperLevels, joined ++ more, ?_⟩
    rw [taken, same, List.append_assoc]
  · refine ⟨intake.pipeline.upperLevels, [], ?_⟩
    rw [List.append_nil]

theorem initiateTagChecks_shape (pipeline : Pipeline config Module) :
    ∃ upperLevels upperOrder internalPq translationStash inflightTagCheck,
      pipeline.initiateTagChecks.pipeline =
        { pipeline with
          upperLevels, upperOrder, internalPq, translationStash, inflightTagCheck } := by
  obtain ⟨upperLevels, joined, taken⟩ := takeFromUpper_shape
    (decide (pipeline.translationStash.length < config.mshrSize))
    (rotateUpper pipeline.restartStash)
  unfold initiateTagChecks takeInternal
  dsimp only
  rw [taken]
  exact ⟨_, _, _, _, _, rfl⟩

theorem initiateTagChecks_lookups (pipeline : Pipeline config Module) :
    pipeline.restartStash.pipeline.inflightTagCheck <+:
        pipeline.initiateTagChecks.pipeline.inflightTagCheck ∧
      pipeline.initiateTagChecks.pipeline.translationStash =
        pipeline.restartStash.pipeline.translationStash := by
  obtain ⟨upperLevels, joined, taken⟩ := takeFromUpper_shape
    (decide (pipeline.translationStash.length < config.mshrSize))
    (rotateUpper pipeline.restartStash)
  unfold initiateTagChecks takeInternal
  dsimp only
  rw [taken]
  exact ⟨(List.prefix_append _ joined).trans (List.prefix_append _ _), rfl⟩

theorem issueEach_entries (lowerTranslate channel : Option Channel)
    (entries issued : List TagLookup)
    (ran : issueEach lowerTranslate entries = some (issued, channel)) :
    List.Forall₂ (fun entry next => ∃ translateIssued, next = { entry with translateIssued })
      entries issued := by
  induction entries generalizing lowerTranslate issued with
  | nil =>
      cases ran
      exact .nil
  | cons entry rest ih =>
      obtain ⟨⟨first, middle⟩, issues, others⟩ := Option.bind_eq_some_iff.mp ran
      obtain ⟨⟨later, last⟩, issuesRest, same⟩ := Option.map_eq_some_iff.mp others
      cases same
      refine .cons ?_ (ih middle later issuesRest)
      unfold issueTranslation at issues
      split at issues
      · obtain ⟨lower, _present, asked⟩ := Option.map_eq_some_iff.mp issues
        split at asked
        · cases asked
          exact ⟨true, rfl⟩
        · cases asked
          exact ⟨entry.translateIssued, rfl⟩
      · cases issues
        exact ⟨entry.translateIssued, rfl⟩

theorem issueTranslations_shape (pipeline next : Pipeline config Module)
    (issued : pipeline.issueTranslations = some next) :
    ∃ inflightTagCheck translationStash lowerTranslate,
      next = { pipeline with inflightTagCheck, translationStash, lowerTranslate } := by
  obtain ⟨⟨checks, channel⟩, _first, others⟩ := Option.bind_eq_some_iff.mp issued
  obtain ⟨⟨stash, last⟩, _second, same⟩ := Option.map_eq_some_iff.mp others
  exact ⟨checks, stash, last, same.symm⟩

theorem issueEach_view {View : Type} (view : TagLookup → View)
    (unseen : ∀ entry translateIssued,
      view { entry with translateIssued := translateIssued } = view entry)
    {lowerTranslate channel : Option Channel} {entries issued : List TagLookup}
    (ran : issueEach lowerTranslate entries = some (issued, channel)) :
    issued.map view = entries.map view := by
  have marked := issueEach_entries lowerTranslate channel entries issued ran
  clear ran
  induction marked with
  | nil => rfl
  | cons first _others ih =>
      obtain ⟨translateIssued, same⟩ := first
      rw [List.map_cons, List.map_cons, ih, same, unseen]

/-- What does not depend on whether translations were issued stays as it is. -/
theorem issueTranslations_view {View : Type} (view : TagLookup → View)
    (unseen : ∀ entry translateIssued,
      view { entry with translateIssued := translateIssued } = view entry)
    {pipeline next : Pipeline config Module} (issued : pipeline.issueTranslations = some next) :
    next.inflightTagCheck.map view = pipeline.inflightTagCheck.map view ∧
      next.translationStash.map view = pipeline.translationStash.map view := by
  obtain ⟨⟨checks, channel⟩, first, others⟩ := Option.bind_eq_some_iff.mp issued
  obtain ⟨⟨stash, last⟩, second, same⟩ := Option.map_eq_some_iff.mp others
  rw [← same]
  exact ⟨issueEach_view view unseen first, issueEach_view view unseen second⟩

theorem prefetcherCycleOperate_shape (hooks : CycleModules Module)
    (pipeline : Pipeline config Module) :
    ∃ added simStats modules, Issued added ∧ pipeline.prefetcherCycleOperate hooks =
      { pipeline with internalPq := pipeline.internalPq ++ added, simStats, modules } := by
  obtain ⟨added, simStats, issued, asked⟩ := pipeline.toState.prefetchLines_shape
    (hooks.prefetcherCycleOperate pipeline.modules).2
  refine ⟨added, simStats, (hooks.prefetcherCycleOperate pipeline.modules).1, issued, ?_⟩
  unfold prefetcherCycleOperate
  dsimp only
  rw [asked]

/-! ### The fills of a cycle -/

def fillStart (pipeline : Pipeline config Module) : Option (Pipeline config Module) :=
  pipeline.checkCollisions.finishPackets.map finishTranslations

theorem fillStart_modules (pipeline ready : Pipeline config Module)
    (ran : pipeline.fillStart = some ready) : ready.modules = pipeline.modules := by
  obtain ⟨finished, finishes, same⟩ := Option.map_eq_some_iff.mp ran
  obtain ⟨state, returned, kept⟩ := Option.map_eq_some_iff.mp finishes
  obtain ⟨upperLevels, checked⟩ := pipeline.checkCollisions_shape
  obtain ⟨stash, lookups, translate, translated⟩ := finished.finishTranslations_shape
  rw [checked] at returned
  have modules : state.modules = pipeline.modules := by
    rw [State.finishEach_withMshr _ state _ returned]
    rfl
  rw [← same, translated, ← kept]
  exact modules

theorem operate_parts (hooks : CycleModules Module) (pipeline next : Pipeline config Module)
    (ran : operate hooks pipeline = some next) :
    ∃ ready served, pipeline.fillStart = some ready ∧
      ready.performFills hooks.toModules = some served ∧
      served.initiateTagChecks.pipeline.checkTags hooks = some next := by
  obtain ⟨served, serves, checks⟩ := Option.bind_eq_some_iff.mp ran
  obtain ⟨finished, finishes, fills⟩ := Option.bind_eq_some_iff.mp serves
  exact ⟨finished.finishTranslations, served, Option.map_eq_some_iff.mpr ⟨finished, finishes, rfl⟩,
    fills, checks⟩

theorem performFills_shape (hooks : Modules Module) (pipeline next : Pipeline config Module)
    (ran : pipeline.performFills hooks = some next) :
    next = { pipeline with toState := next.toState } := by
  obtain ⟨⟨filled, middle⟩, mshrs, writes⟩ := Option.bind_eq_some_iff.mp ran
  obtain ⟨first, -, same⟩ := Option.map_eq_some_iff.mp mshrs
  cases same
  obtain ⟨second, -, done⟩ := Option.map_eq_some_iff.mp writes
  subst done
  rfl

/-- The fills of a cycle keep what every fill of a record keeps, and what says
nothing of the records. -/
theorem performFills_invariant (hooks : Modules Module)
    (Invariant : State config.toConfig Module → Prop) (pipeline next : Pipeline config Module)
    (preserved : ∀ state entry, entry ∈ pipeline.mshr ++ pipeline.inflightWrites →
      ∀ filled last, Invariant state → FillEffect state entry filled last → Invariant last)
    (erased : ∀ state mshr inflightWrites, Invariant state →
      Invariant { state with mshr, inflightWrites })
    (initial : Invariant pipeline.toState) (ran : pipeline.performFills hooks = some next) :
    Invariant next.toState := by
  obtain ⟨⟨filled, middle⟩, mshrs, writes⟩ := Option.bind_eq_some_iff.mp ran
  obtain ⟨⟨count, reached⟩, first, same⟩ := Option.map_eq_some_iff.mp mshrs
  cases same
  obtain ⟨⟨written, last⟩, second, done⟩ := Option.map_eq_some_iff.mp writes
  subst done
  have afterMshrs := State.fillSpan_invariant hooks Invariant _ (fun state entry member =>
    preserved state entry (List.mem_append_left _
      ((Queue.span_isPrefix _ _ _).sublist.subset member))) _ _ _ initial first
  have keptWrites := (State.fillSpan_records hooks _ _ _ _ first).1.2
  have afterWrites := State.fillSpan_invariant hooks Invariant _ (fun state entry member =>
    preserved state entry (List.mem_append_right _ (by
      have present := (Queue.span_isPrefix _ _ _).sublist.subset member
      rw [← keptWrites]
      exact present))) _ _ _ (erased _ _ _ afterMshrs.1) second
  exact erased _ _ _ afterWrites.1

/-! ### The tag checks of a cycle -/

theorem performTagChecks_invariant (hooks : Modules Module)
    (Invariant : State config.toConfig Module → Prop) (pipeline : Pipeline config Module)
    (hits : ∀ state handlePkt accepted next, Invariant state →
      HitEffect state handlePkt accepted next → Invariant next)
    (misses : ∀ state handlePkt, Invariant state → Invariant (state.doHandleMiss handlePkt).2)
    (initial : Invariant pipeline.toState) :
    Invariant (pipeline.performTagChecks hooks).toState := by
  apply Queue.partition_invariant State.doHandleMiss Invariant
  · intro state handlePkt _member before
    exact misses state handlePkt before
  · apply Queue.partition_invariant (State.tryHit hooks) Invariant
    · intro state handlePkt _member before
      exact hits state handlePkt _ _ before (State.tryHit_effect hooks state handlePkt)
    · exact initial

/-- The rest of a cycle keeps what tag checks keep, and what says nothing of
the queues that hold no record. -/
theorem checkTags_invariant (hooks : CycleModules Module)
    (Invariant : State config.toConfig Module → Prop) (served next : Pipeline config Module)
    (hits : ∀ state handlePkt accepted last, Invariant state →
      HitEffect state handlePkt accepted last → Invariant last)
    (misses : ∀ state handlePkt, Invariant state → Invariant (state.doHandleMiss handlePkt).2)
    (others : ∀ state upperLevels internalPq simStats modules, Invariant state →
      Invariant { state with upperLevels, internalPq, simStats, modules })
    (initial : Invariant served.toState)
    (ran : served.initiateTagChecks.pipeline.checkTags hooks = some next) :
    Invariant next.toState := by
  obtain ⟨issued, issues, done⟩ := Option.map_eq_some_iff.mp ran
  obtain ⟨uppers, order, internalPq, stashed, initiated, taken⟩ := served.initiateTagChecks_shape
  rw [taken] at issues
  obtain ⟨lookedUp, waits, channel, same⟩ := issueTranslations_shape _ issued issues
  have afterIssue : Invariant issued.stashUntranslated.toState := by
    rw [same]
    exact others _ _ _ _ _ initial
  have afterChecks :=
    issued.stashUntranslated.performTagChecks_invariant hooks.toModules Invariant hits misses afterIssue
  obtain ⟨added, stats, modules, _issued, cycled⟩ :=
    (issued.stashUntranslated.performTagChecks hooks.toModules).prefetcherCycleOperate_shape hooks
  rw [← done, cycled]
  exact others _ _ _ _ _ afterChecks

end Pipeline

/-! ### A small cache -/

/-- One set of two ways, which takes a write from above as a fill. -/
def twoWays : OperateConfig where
  numSet := 1
  numWay := 2
  mshrSize := 2
  pqSize := 2
  hitLatency := 1
  fillLatency := 3
  clockPeriod := 1
  offsetBits := 6
  prefetchAsLoad := false
  matchOffsetBits := false
  virtualPrefetch := false
  prefActivateMask := []
  hasSets := Nat.one_pos
  maxTag := 4
  maxFill := 4
  log2PageSize := 12
  upperOffsetBits _ := 6
  upperMatchOffset _ := false

def silentCycle : CycleModules Unit where
  toModules := silentModules
  prefetcherCycleOperate _ := ((), [])

/-- The queues above the cache, which hold the given requests. -/
def requestsAbove (rq wq : List Request) : Nat → Channel :=
  fun _level => { rqSize := 4, pqSize := 4, wqSize := 4, rq, wq }

def idleCache : Pipeline twoWays Unit where
  upperLevels := requestsAbove [] []
  lowerLevel := { rqSize := 4, pqSize := 4, wqSize := 4 }
  modules := ()
  upperOrder := [0]

theorem idleCache_idle : Idle idleCache := ⟨rfl, rfl, rfl, rfl, rfl, rfl, rfl⟩

end ChampSim.Cache

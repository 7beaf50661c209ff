/-
The ledger of a cache: what it has taken and what it has answered.

A request stays with a holder that names its level and its instructions until
a response for its block is returned to that level.
-/

import ChampSim.Cache.Requesters

set_option autoImplicit false

namespace ChampSim.Cache

open Transition Custody

/-- The holder that a request has when it is taken from a level. -/
def Request.holder (config : Config) (level : Nat) (request : Request) : Holder Place where
  place :=
    if request.isTranslated then .block (config.blockNumber request.address)
    else .untranslated request.vAddress
  toReturn := if request.responseRequested then [level] else []
  tokens := request.instrDependOnMe

theorem Sent.more {before after : Nat → Channel}
    (returned : ∀ level, (before level).returned <+: (after level).returned) :
    Sent before [] after := by
  intro level
  obtain ⟨pushed, same⟩ := returned level
  refine ⟨pushed, same.symm, ?_⟩
  intro answer member
  cases member

namespace Pipeline

variable {config : OperateConfig} {Module : Type} {translations : List Response}

/-! ### Collisions and translations -/

theorem updateUppers_returned (pipeline : Pipeline config Module) (order : List Nat)
    (change : Nat → Channel → Channel)
    (grows : ∀ level channel, channel.returned <+: (change level channel).returned)
    (level : Nat) :
    (pipeline.upperLevels level).returned <+:
      ((order.foldl (fun changed other => changed.updateUpper other (change other))
        pipeline).upperLevels level).returned := by
  induction order generalizing pipeline with
  | nil => exact List.prefix_refl _
  | cons other rest ih =>
      apply List.IsPrefix.trans ?_ (ih (pipeline.updateUpper other (change other)))
      unfold updateUpper
      dsimp only
      by_cases same : level = other
      · rw [if_pos same]
        exact grows other _
      · rw [if_neg same]

theorem checkCollisions_hands (translations : List Response) (pipeline : Pipeline config Module) :
    HandsTo translations pipeline pipeline.checkCollisions := by
  have returned := pipeline.updateUppers_returned pipeline.upperOrder
    (fun level => Channel.checkCollision (config.upperOffsetBits level)
      (config.upperMatchOffset level)) (fun level channel => by
        unfold Channel.checkCollision
        dsimp only
        rw [List.append_assoc]
        exact List.prefix_append _ _)
  have holders : pipeline.checkCollisions.holders = pipeline.holders := by
    obtain ⟨upperLevels, checked⟩ := pipeline.checkCollisions_shape
    rw [checked]
    rfl
  refine ⟨[], ?_, Sent.more returned⟩
  rw [holders]
  exact Moves.refl _

theorem issueTranslations_hands (translations : List Response)
    (pipeline next : Pipeline config Module)
    (areLocal : ∀ entry ∈ pipeline.lookups, entry.Local)
    (ran : pipeline.issueTranslations = some next) :
    HandsTo translations pipeline next ∧ ∀ entry ∈ next.lookups, entry.Local := by
  obtain ⟨checkHolders, stashHolders⟩ := issueTranslations_view
    (TagLookup.holder config.toConfig) (fun _ _ => rfl) ran
  obtain ⟨checksLocal, stashLocal⟩ := issueTranslations_view TagLookup.Local (fun _ _ => rfl) ran
  have locals : next.lookups.map TagLookup.Local = pipeline.lookups.map TagLookup.Local := by
    unfold lookups
    rw [List.map_append, List.map_append, checksLocal, stashLocal]
  constructor
  · obtain ⟨checks, stash, channel, same⟩ := issueTranslations_shape pipeline next ran
    subst same
    apply HandsOver.same rfl
    unfold holders lookups
    rw [List.map_append, List.map_append, checkHolders, stashHolders]
  · apply (List.forall_mem_map (f := TagLookup.Local) (P := id)).mp
    rw [locals]
    exact List.forall_mem_map.mpr areLocal

theorem stashUntranslated_lookups (pipeline : Pipeline config Module) :
    pipeline.lookups.Perm pipeline.stashUntranslated.lookups := by
  unfold lookups stashUntranslated
  dsimp only
  have parted := List.filter_append_perm (fun entry =>
    isReady pipeline.currentTime entry && !entry.isTranslated) pipeline.inflightTagCheck
  have moved := (parted.symm.trans List.perm_append_comm).append_right pipeline.translationStash
  rw [List.append_assoc] at moved
  exact moved.trans (List.perm_append_comm.append_left _)

theorem stashUntranslated_hands (pipeline : Pipeline config Module) :
    HandsTo translations pipeline pipeline.stashUntranslated :=
  HandsOver.same rfl ((pipeline.stashUntranslated_lookups.map _).append_right _)

theorem prefetcherCycleOperate_hands (hooks : CycleModules Module)
    (pipeline : Pipeline config Module) :
    HandsTo translations pipeline (pipeline.prefetcherCycleOperate hooks) := by
  obtain ⟨added, simStats, modules, _issued, asked⟩ :=
    pipeline.prefetcherCycleOperate_shape hooks
  rw [asked]
  exact HandsOver.same rfl (List.Perm.refl _)

theorem checkTags_hands (translations : List Response) (hooks : CycleModules Module)
    (pipeline next : Pipeline config Module)
    (areLocal : ∀ entry ∈ pipeline.lookups, entry.Local)
    (ran : pipeline.checkTags hooks = some next) : HandsTo translations pipeline next := by
  obtain ⟨issued, issues, same⟩ := Option.map_eq_some_iff.mp ran
  obtain ⟨handed, still⟩ := pipeline.issueTranslations_hands translations issued areLocal issues
  have stashLocal : ∀ entry ∈ issued.stashUntranslated.inflightTagCheck, entry.Local := by
    intro entry member
    exact still entry (issued.stashUntranslated_lookups.mem_iff.mpr
      (List.mem_append_left _ member))
  have stashed := handed.trans issued.stashUntranslated_hands
  have checked := stashed.trans
    (issued.stashUntranslated.performTagChecks_hands hooks.toModules stashLocal)
  have cycled := checked.trans (prefetcherCycleOperate_hands hooks _)
  rw [same] at cycled
  exact cycled

theorem serveReturns_hands (hooks : CycleModules Module) (pipeline next : Pipeline config Module)
    (known : ∀ channel, pipeline.lowerTranslate = some channel →
      ∀ packet ∈ channel.returned, packet ∈ translations)
    (ran : pipeline.serveReturns hooks = some next) : HandsTo translations pipeline next := by
  obtain ⟨finished, finishes, fills⟩ := Option.bind_eq_some_iff.mp ran
  have translate : finished.lowerTranslate = pipeline.lowerTranslate := by
    obtain ⟨upperLevels, checked⟩ := pipeline.checkCollisions_shape
    rw [checked] at finishes
    obtain ⟨state, _returned, same⟩ := Option.map_eq_some_iff.mp finishes
    rw [← same]
  have returned := (pipeline.checkCollisions_hands translations).trans
    (pipeline.checkCollisions.finishPackets_hands finished finishes)
  have translated := returned.trans (finished.finishTranslations_hands
    (fun channel present => known channel (translate ▸ present)))
  exact translated.trans (finished.finishTranslations.performFills_hands hooks.toModules next fills)

/-! ### What is taken -/

theorem holders_lookUp (pipeline next : Pipeline config Module) (more : List TagLookup)
    (checks : next.inflightTagCheck = pipeline.inflightTagCheck ++ more)
    (stash : next.translationStash = pipeline.translationStash)
    (records : next.recordHolders = pipeline.recordHolders) :
    (pipeline.holders ++ more.map (TagLookup.holder config.toConfig)).Perm next.holders := by
  unfold holders lookups
  rw [checks, stash, records]
  simp only [List.map_append, List.append_assoc]
  apply List.Perm.append_left
  rw [← List.append_assoc]
  exact List.perm_append_comm

/-- What an intake has taken is added to the holders, and nothing is returned. -/
structure Took (before : Pipeline config Module) (intake : Intake config Module) : Prop where
  holders : (before.holders ++
    intake.taken.map (fun taken => taken.2.holder config.toConfig taken.1)).Perm
      intake.pipeline.holders
  returned : ∀ level, (intake.pipeline.upperLevels level).returned =
    (before.upperLevels level).returned
  areLocal : (∀ entry ∈ before.lookups, entry.Local) →
    ∀ entry ∈ intake.pipeline.lookups, entry.Local
  internalPq : intake.pipeline.internalPq = before.internalPq

theorem restartStash_view {View : Type} (view : TagLookup → View) (pipeline : Pipeline config Module)
    (unseen : ∀ entry, view (pipeline.initiateTagCheck entry) = view entry) :
    pipeline.restartStash.pipeline.lookups.map view = pipeline.lookups.map view := by
  have split := Queue.span_append_beyond pipeline.initiateBandwidth
    (fun entry : TagLookup => entry.isTranslated) pipeline.translationStash
  have restarted : pipeline.restartStash.pipeline.lookups = pipeline.inflightTagCheck ++
      ((Queue.span pipeline.initiateBandwidth (fun entry => entry.isTranslated)
        pipeline.translationStash).map pipeline.initiateTagCheck ++
        Queue.beyond pipeline.initiateBandwidth (fun entry => entry.isTranslated)
          pipeline.translationStash) := List.append_assoc _ _ _
  rw [restarted]
  unfold lookups
  conv_rhs => rw [← split]
  rw [List.map_append, List.map_append, List.map_append, List.map_append, List.map_map]
  exact congrArg _ (congrArg (· ++ _) (List.map_congr_left (fun entry _member => unseen entry)))

theorem restartStash_took (pipeline : Pipeline config Module) :
    Took pipeline pipeline.restartStash := by
  constructor
  · have same := pipeline.restartStash_view (TagLookup.holder config.toConfig) (fun _entry => rfl)
    have records : pipeline.restartStash.pipeline.recordHolders = pipeline.recordHolders := rfl
    have none : pipeline.restartStash.taken = [] := rfl
    unfold holders
    rw [same, records, none, List.map_nil, List.append_nil]
  · intro level
    rfl
  · intro before
    have same := pipeline.restartStash_view TagLookup.Local (fun _entry => rfl)
    apply (List.forall_mem_map (f := TagLookup.Local) (P := id)).mp
    rw [same]
    exact List.forall_mem_map.mpr before
  · rfl

theorem takeRequests_took (avail : Bool) (perUpper : Nat) {before : Pipeline config Module}
    {intake : Intake config Module} (took : Took before intake) (source : Nat × QueueName) :
    Took before (takeRequests avail perUpper intake source) := by
  constructor
  · have taken : (takeRequests avail perUpper intake source).taken.map
        (fun taken => taken.2.holder config.toConfig taken.1) =
          intake.taken.map (fun taken => taken.2.holder config.toConfig taken.1) ++
            ((Queue.span (min perUpper intake.remaining)
              (fun request => avail || request.isTranslated)
              ((intake.pipeline.upperLevels source.1).queue source.2)).map
                (intake.pipeline.initiateRequest source.1)).map
                  (TagLookup.holder config.toConfig) := by
      unfold takeRequests
      dsimp only
      rw [List.map_append, List.map_map, List.map_map]
      rfl
    rw [taken, ← List.append_assoc]
    exact (took.holders.append_right _).trans (holders_lookUp _ _ _ rfl rfl rfl)
  · intro level
    rw [← took.returned level]
    unfold takeRequests updateUpper
    dsimp only
    by_cases same : level = source.1
    · rw [if_pos same]
      cases source.2 with
      | rq => rfl
      | pq => rfl
      | wq => rfl
    · rw [if_neg same]
  · intro areLocal entry member
    rcases List.mem_append.mp member with inFlight | stashed
    · rcases List.mem_append.mp inFlight with older | newer
      · exact took.areLocal areLocal entry (List.mem_append_left _ older)
      · obtain ⟨request, _among, same⟩ := List.mem_map.mp newer
        subst same
        intro impossible
        cases impossible
    · exact took.areLocal areLocal entry (List.mem_append_right _ stashed)
  · exact took.internalPq

theorem takeFromUpper_took (avail : Bool) {before : Pipeline config Module}
    {intake : Intake config Module} (took : Took before intake) :
    Took before (takeFromUpper avail intake) :=
  takeFromUpper_invariant avail (Took before)
    (fun perUpper _reached source earlier => takeRequests_took avail perUpper earlier source)
    intake took

/-- The prefetches that a cache asks of itself answer to no one. -/
def Own (pipeline : Pipeline config Module) : Prop := Issued pipeline.internalPq

theorem initiateTagChecks_hands (translations : List Response)
    (pipeline : Pipeline config Module) (own : pipeline.Own)
    (areLocal : ∀ entry ∈ pipeline.lookups, entry.Local) :
    HandsOver translations pipeline.toState
        (pipeline.holders ++ pipeline.initiateTagChecks.taken.map
          (fun taken => taken.2.holder config.toConfig taken.1))
        pipeline.initiateTagChecks.pipeline.toState pipeline.initiateTagChecks.pipeline.holders ∧
      ∀ entry ∈ pipeline.initiateTagChecks.pipeline.lookups, entry.Local := by
  have rotated : Took pipeline (rotateUpper pipeline.restartStash) :=
    ⟨pipeline.restartStash_took.holders, pipeline.restartStash_took.returned,
      pipeline.restartStash_took.areLocal, pipeline.restartStash_took.internalPq⟩
  have took := takeFromUpper_took
    (decide (pipeline.translationStash.length < config.mshrSize)) rotated
  unfold initiateTagChecks
  dsimp only
  revert took
  generalize takeFromUpper _ (rotateUpper pipeline.restartStash) = intake
  intro took
  unfold takeInternal
  dsimp only
  have mine := (Queue.span_isPrefix intake.remaining (fun entry : TagLookup =>
    decide (pipeline.translationStash.length < config.mshrSize) || entry.isTranslated)
      intake.pipeline.internalPq).subset
  revert mine
  generalize Queue.span intake.remaining _ intake.pipeline.internalPq = prefetches
  generalize Queue.beyond intake.remaining _ intake.pipeline.internalPq = others
  intro mine
  rw [took.internalPq] at mine
  constructor
  · have entered : Moves (Resolves config translations) (Replies config.toConfig)
        intake.pipeline.holders []
        ((prefetches.map intake.pipeline.initiateTagCheck).map (TagLookup.holder config.toConfig) ++
          intake.pipeline.holders) := by
      apply Moves.enterEach
      intro holder member
      obtain ⟨initiated, among, same⟩ := List.mem_map.mp member
      obtain ⟨entry, asked, sameEntry⟩ := List.mem_map.mp among
      subst same
      subst sameEntry
      exact (own entry (mine asked)).2.2
    refine ⟨[], (entered.before_perm took.holders).after_perm (List.perm_append_comm.trans
      (holders_lookUp intake.pipeline _ _ rfl rfl rfl)), ?_⟩
    apply Sent.more
    intro level
    rw [← took.returned level]
  · intro entry member
    rcases List.mem_append.mp member with inFlight | stashed
    · rcases List.mem_append.mp inFlight with older | newer
      · exact took.areLocal areLocal entry (List.mem_append_left _ older)
      · obtain ⟨asked, among, same⟩ := List.mem_map.mp newer
        subst same
        intro _mine
        exact (own asked (mine among)).2.1
    · exact took.areLocal areLocal entry (List.mem_append_right _ stashed)

/-! ### The prefetches of the cache itself -/

/-- No prefetch that a cache asks of itself names a level to return to. -/
structure Silent (pipeline : Pipeline config Module) : Prop where
  own : pipeline.Own
  areLocal : ∀ entry ∈ pipeline.lookups, entry.Local

theorem finishTranslations_local (pipeline : Pipeline config Module)
    (areLocal : ∀ entry ∈ pipeline.lookups, entry.Local) :
    ∀ entry ∈ pipeline.finishTranslations.lookups, entry.Local := by
  apply finishTranslations_invariant (fun reached => ∀ entry ∈ reached.lookups, entry.Local) ?_
    (fun _reached _lowerTranslate before => before) pipeline areLocal
  intro reached packet before entry member
  have among := (reached.finishTranslation_lookups packet).mem_iff.mpr member
  obtain ⟨older, present, same⟩ := List.mem_map.mp among
  subst same
  unfold translated
  split
  · exact before older present
  · exact before older present

theorem performFills_own (hooks : Modules Module) (pipeline next : Pipeline config Module)
    (own : pipeline.Own) (ran : pipeline.performFills hooks = some next) :
    next.Own ∧ next.lookups = pipeline.lookups := by
  constructor
  · apply performFills_invariant hooks (fun state => Issued state.internalPq) pipeline next ?_
      (fun _ _ _ issued => issued) own ran
    intro state entry _member filled last issued effect
    cases effect with
    | refused => exact issued
    | bypassed cpu added simStats modules metadata more => exact issued.append more
    | installed cpu added simStats modules metadata way lowerLevel more => exact issued.append more
  · obtain ⟨⟨filled, middle⟩, mshrs, writes⟩ := Option.bind_eq_some_iff.mp ran
    obtain ⟨⟨count, reached⟩, _first, same⟩ := Option.map_eq_some_iff.mp mshrs
    cases same
    obtain ⟨⟨written, last⟩, _second, done⟩ := Option.map_eq_some_iff.mp writes
    subst done
    rfl

theorem serveReturns_silent (hooks : CycleModules Module) (pipeline next : Pipeline config Module)
    (silent : pipeline.Silent) (ran : pipeline.serveReturns hooks = some next) : next.Silent := by
  obtain ⟨finished, finishes, fills⟩ := Option.bind_eq_some_iff.mp ran
  obtain ⟨upperLevels, checked⟩ := pipeline.checkCollisions_shape
  rw [checked] at finishes
  obtain ⟨state, returned, same⟩ := Option.map_eq_some_iff.mp finishes
  have internal : finished.internalPq = pipeline.internalPq := by
    rw [← same]
    change state.internalPq = _
    rw [State.finishEach_withMshr _ state _ returned]
    rfl
  have lookups : finished.lookups = pipeline.lookups := by
    rw [← same]
    rfl
  have areLocal := finished.finishTranslations_local (lookups ▸ silent.areLocal)
  obtain ⟨stash, checks, translate, translated⟩ := finished.finishTranslations_shape
  have own : finished.finishTranslations.Own := by
    rw [translated]
    unfold Own
    dsimp only
    rw [internal]
    exact silent.own
  obtain ⟨kept, sameLookups⟩ :=
    finished.finishTranslations.performFills_own hooks.toModules next own fills
  exact ⟨kept, sameLookups ▸ areLocal⟩

theorem initiateTagChecks_silent (pipeline : Pipeline config Module) (silent : pipeline.Silent) :
    pipeline.initiateTagChecks.pipeline.Silent := by
  refine ⟨?_, (pipeline.initiateTagChecks_hands [] silent.own silent.areLocal).2⟩
  have taken : (takeFromUpper (decide (pipeline.translationStash.length < config.mshrSize))
      (rotateUpper pipeline.restartStash)).pipeline.internalPq = pipeline.internalPq := by
    obtain ⟨upperLevels, checks, same⟩ := takeFromUpper_shape
      (decide (pipeline.translationStash.length < config.mshrSize))
        (rotateUpper pipeline.restartStash)
    rw [same]
    rfl
  intro entry member
  have among := List.mem_of_mem_drop member
  rw [taken] at among
  exact silent.own entry among

theorem performTagChecks_silent (hooks : Modules Module) (pipeline : Pipeline config Module)
    (silent : pipeline.Silent) : (pipeline.performTagChecks hooks).Silent := by
  constructor
  · apply performTagChecks_invariant hooks (fun state => Issued state.internalPq) pipeline ?_ ?_
      silent.own
    · intro state handlePkt accepted next issued effect
      cases effect with
      | missed cpu added simStats modules more => exact issued.append more
      | hit cpu added simStats modules way prefetch metadata more => exact issued.append more
    · intro state handlePkt issued
      rw [(state.doHandleMiss_frame handlePkt).2.2]
      exact issued
  · intro entry member
    apply silent.areLocal entry
    rcases List.mem_append.mp member with inFlight | stashed
    · apply List.mem_append_left
      rcases List.mem_append.mp inFlight with missed | later
      · have among := (Queue.partition_perm State.doHandleMiss _ _).mem_iff.mp
          (List.mem_append_right _ missed)
        have checked := (Queue.partition_perm (State.tryHit hooks) _ _).mem_iff.mp
          (List.mem_append_right _ among)
        exact (Queue.span_isPrefix _ _ _).subset checked
      · exact List.mem_of_mem_drop later
    · exact List.mem_append_right _ stashed

theorem checkTags_silent (hooks : CycleModules Module) (pipeline next : Pipeline config Module)
    (silent : pipeline.Silent) (ran : pipeline.checkTags hooks = some next) : next.Silent := by
  obtain ⟨issued, issues, same⟩ := Option.map_eq_some_iff.mp ran
  have areLocal :=
    (pipeline.issueTranslations_hands [] issued silent.areLocal issues).2
  obtain ⟨checks, stash, translate, shape⟩ := issueTranslations_shape pipeline issued issues
  have stashed : issued.stashUntranslated.Silent := by
    constructor
    · rw [shape]
      exact silent.own
    · intro entry member
      exact areLocal entry (issued.stashUntranslated_lookups.mem_iff.mpr member)
  have checked := issued.stashUntranslated.performTagChecks_silent hooks.toModules stashed
  obtain ⟨added, stats, modules, more, cycled⟩ :=
    (issued.stashUntranslated.performTagChecks hooks.toModules).prefetcherCycleOperate_shape hooks
  rw [← same, cycled]
  exact ⟨checked.own.append more, checked.areLocal⟩

end Pipeline

/-! ### The ledger -/

/-- A request that was taken from a level, and what was returned to it since. -/
structure Taken where
  level : Nat
  request : Request
  answered : List Response := []

structure Ledger where
  taken : List Taken := []
  translations : List Response := []

def Pipeline.pushedOn {config : OperateConfig} {Module : Type} (level : Nat)
    (before after : Pipeline config Module) : List Response :=
  (after.upperLevels level).returned.drop (before.upperLevels level).returned.length

def noteTaken {config : OperateConfig} {Module : Type} (hooks : CycleModules Module)
    (pipeline : Pipeline config Module) (label : Step Module) (ledger : Ledger) : Ledger :=
  let begun := { pipeline with currentTime := pipeline.currentTime + config.clockPeriod }
  match label, begun.serveReturns hooks, begun.operate hooks with
  | .operate, some served, some next =>
      { taken := ledger.taken.map (fun entry =>
            { entry with answered := entry.answered ++ Pipeline.pushedOn entry.level begun next }) ++
          served.initiateTagChecks.taken.map (fun (level, request) =>
            { level, request, answered := Pipeline.pushedOn level served next })
        translations :=
          ledger.translations ++ pipeline.lowerTranslate.elim [] (fun channel => channel.returned) }
  | _, _, _ => ledger

def ledgers {config : OperateConfig} {Module : Type} (hooks : CycleModules Module) :
    Machine (Pipeline config Module × Ledger) (Step Module) :=
  (cycles hooks).record (noteTaken hooks)

/-- The block of a request, which a translation may have made known. -/
def Request.Names (config : OperateConfig) (translations : List Response) (request : Request)
    (number : BitVec 64) : Prop :=
  if request.isTranslated then number = config.blockNumber request.address
  else Resolves config translations (.untranslated request.vAddress) (.block number)

def Request.Fits (config : OperateConfig) (translations : List Response) (request : Request) :
    Place → Prop
  | .block number => request.Names config translations number
  | .untranslated vAddress => request.isTranslated = false ∧ vAddress = request.vAddress

theorem Request.fits_resolves (config : OperateConfig) (translations : List Response)
    (request : Request) (place other : Place) (resolves : Resolves config translations place other)
    (fits : request.Fits config translations place) : request.Fits config translations other := by
  cases place with
  | block number => cases resolves
  | untranslated vAddress =>
      obtain ⟨waits, same⟩ := fits
      subst same
      cases other with
      | untranslated others => cases resolves
      | block number =>
          unfold Fits Names
          dsimp only
          rw [waits, if_neg Bool.false_ne_true]
          exact resolves

theorem Request.fits_more (config : OperateConfig) {translations more : List Response}
    (known : translations ⊆ more) (request : Request) (place : Place)
    (fits : request.Fits config translations place) : request.Fits config more place := by
  cases place with
  | untranslated vAddress => exact fits
  | block number =>
      unfold Fits Names at fits ⊢
      dsimp only at fits ⊢
      by_cases translated : request.isTranslated = true
      · rw [if_pos translated] at fits ⊢
        exact fits
      · rw [if_neg translated] at fits ⊢
        obtain ⟨packet, member, same⟩ := fits
        exact ⟨packet, known member, same⟩

def Taken.AnsweredBy (config : OperateConfig) (translations : List Response) (taken : Taken)
    (response : Response) : Prop :=
  taken.request.Names config translations (config.blockNumber response.address) ∧
    ∀ id ∈ taken.request.instrDependOnMe, id ∈ response.instrDependOnMe

/-- A holder that names the level of a request and all its instructions. -/
def Taken.carriedBy (taken : Taken) (holder : Holder Place) : Bool :=
  decide (taken.level ∈ holder.toReturn ∧
    ∀ id ∈ taken.request.instrDependOnMe, id ∈ holder.tokens)

namespace Pipeline

variable {config : OperateConfig} {Module : Type}

def Owes (pipeline : Pipeline config Module) (translations : List Response) (taken : Taken) :
    Prop :=
  (∃ response ∈ taken.answered, taken.AnsweredBy config translations response) ∨
    ∃ holder ∈ pipeline.holders, Serves (taken.request.Fits config translations) taken.level
      taken.request.instrDependOnMe holder

/-- Every taken request is answered or held, and no instruction is held more
often than it was named by a request. -/
structure Kept (pipeline : Pipeline config Module) (ledger : Ledger) : Prop where
  silent : pipeline.Silent
  owes : ∀ taken ∈ ledger.taken, taken.request.responseRequested = true →
    pipeline.Owes ledger.translations taken
  once : ∀ id, pipeline.holders.countP (fun holder => decide (id ∈ holder.tokens)) ≤
    ledger.taken.countP (fun taken => decide (id ∈ taken.request.instrDependOnMe))

theorem pushedOn_of_returned {before after : Pipeline config Module} {level : Nat}
    {pushed : List Response} (returned : (after.upperLevels level).returned =
      (before.upperLevels level).returned ++ pushed) : pushedOn level before after = pushed := by
  unfold pushedOn
  rw [returned, List.drop_left]

/-- A requester that is served before a part of a cycle is served after it, or
what the part returns to its level answers it. -/
theorem owes_of_hands {before after : Pipeline config Module} {translations : List Response}
    {holders : List (Holder Place)} (taken : Taken)
    (hands : HandsOver translations before.toState holders after.toState after.holders)
    (served : ∃ holder ∈ holders, Serves (taken.request.Fits config translations) taken.level
      taken.request.instrDependOnMe holder)
    (pushed : pushedOn taken.level before after ⊆ taken.answered) :
    after.Owes translations taken := by
  obtain ⟨answers, moves, sent⟩ := hands
  rcases moves.serves (taken.request.Fits config translations)
    (taken.request.fits_resolves config translations) taken.level taken.request.instrDependOnMe
      served with still | ⟨answer, member, serving, replies⟩
  · exact Or.inr still
  · obtain ⟨sentNow, returned, answered⟩ := sent taken.level
    have present := answered answer member serving.toReturn
    rw [pushedOn_of_returned returned] at pushed
    refine Or.inl ⟨answer.2, pushed present, ?_, ?_⟩
    · have fits := serving.fits
      rw [replies.1] at fits
      exact fits
    · intro id listed
      rw [replies.2]
      exact serving.tokens id listed

theorem serves_of_taken (translations : List Response) (level : Nat) (request : Request)
    (asked : request.responseRequested = true) :
    Serves (request.Fits config translations) level request.instrDependOnMe
      (request.holder config.toConfig level) := by
  constructor
  · unfold Request.holder
    dsimp only
    cases translated : request.isTranslated with
    | true =>
        rw [if_pos rfl]
        unfold Request.Fits Request.Names
        dsimp only
        rw [if_pos translated]
    | false =>
        rw [if_neg Bool.false_ne_true]
        exact ⟨translated, rfl⟩
  · unfold Request.holder
    dsimp only
    rw [if_pos asked]
    exact List.mem_singleton_self level
  · intro token listed
    exact listed

/-- What one cycle hands from holder to holder, with the requests it takes. -/
theorem operate_hands (hooks : CycleModules Module) (begun served next : Pipeline config Module)
    (translations : List Response) (silent : begun.Silent)
    (known : ∀ channel, begun.lowerTranslate = some channel →
      ∀ packet ∈ channel.returned, packet ∈ translations)
    (serves : begun.serveReturns hooks = some served)
    (checks : served.initiateTagChecks.pipeline.checkTags hooks = some next) :
    HandsTo translations begun served ∧
      HandsOver translations served.toState
        (served.holders ++ served.initiateTagChecks.taken.map
          (fun taken => taken.2.holder config.toConfig taken.1)) next.toState next.holders ∧
      next.Silent := by
  have servedSilent := begun.serveReturns_silent hooks served silent serves
  have takenSilent := served.initiateTagChecks_silent servedSilent
  have taken := (served.initiateTagChecks_hands translations servedSilent.own
    servedSilent.areLocal).1
  have checked := served.initiateTagChecks.pipeline.checkTags_hands translations
    hooks next takenSilent.areLocal checks
  exact ⟨begun.serveReturns_hands hooks served known serves,
    Hands.trans (fun _ _ _ _ _ => Sent.together) taken checked,
    served.initiateTagChecks.pipeline.checkTags_silent hooks next takenSilent checks⟩

theorem Owes.weaken {before after : Pipeline config Module} {translations more : List Response}
    {taken : Taken} (owes : before.Owes translations taken) (known : translations ⊆ more)
    (holders : after.holders = before.holders) : after.Owes more taken := by
  rcases owes with ⟨response, member, names, ids⟩ | ⟨holder, member, serving⟩
  · exact Or.inl ⟨response, member,
      taken.request.fits_more config known (.block (config.blockNumber response.address)) names, ids⟩
  · rw [← holders] at member
    exact Or.inr ⟨holder, member, taken.request.fits_more config known _ serving.fits,
      serving.toReturn, serving.tokens⟩

theorem operate_kept (hooks : CycleModules Module) (pipeline next : Pipeline config Module)
    (ledger : Ledger) (kept : pipeline.Kept ledger) (ran : pipeline.cycle hooks = some next) :
    next.Kept (noteTaken hooks pipeline .operate ledger) := by
  have begins : ({ pipeline with currentTime := pipeline.currentTime + config.clockPeriod } :
      Pipeline config Module).operate hooks = some next := ran
  unfold noteTaken
  dsimp only
  rw [begins]
  generalize more : pipeline.lowerTranslate.elim [] (fun channel => channel.returned) = packets
  have holders : ({ pipeline with currentTime := pipeline.currentTime + config.clockPeriod } :
      Pipeline config Module).holders = pipeline.holders := rfl
  have silent : ({ pipeline with currentTime := pipeline.currentTime + config.clockPeriod } :
      Pipeline config Module).Silent := ⟨kept.silent.own, kept.silent.areLocal⟩
  have known : ∀ channel, ({ pipeline with
      currentTime := pipeline.currentTime + config.clockPeriod } :
        Pipeline config Module).lowerTranslate = some channel →
          ∀ packet ∈ channel.returned, packet ∈ ledger.translations ++ packets := by
    intro channel present packet member
    apply List.mem_append_right
    rw [← more]
    have same : pipeline.lowerTranslate = some channel := present
    rw [same]
    exact member
  revert begins holders silent known
  generalize ({ pipeline with currentTime := pipeline.currentTime + config.clockPeriod } :
    Pipeline config Module) = begun
  intro begins holders silent known
  obtain ⟨served, serves, checks⟩ := Option.bind_eq_some_iff.mp begins
  rw [serves]
  dsimp only
  obtain ⟨first, second, silentNext⟩ :=
    operate_hands hooks begun served next (ledger.translations ++ packets) silent known serves checks
  have whole : HandsOver (ledger.translations ++ packets) begun.toState
      (begun.holders ++ served.initiateTagChecks.taken.map
        (fun taken => taken.2.holder config.toConfig taken.1)) next.toState next.holders :=
    Hands.trans (fun _ _ _ _ _ => Sent.together) (first.frame _) second
  constructor
  · exact silentNext
  · intro taken member asked
    rcases List.mem_append.mp member with older | newer
    · obtain ⟨entry, among, same⟩ := List.mem_map.mp older
      subst same
      have owes : begun.Owes (ledger.translations ++ packets) entry :=
        (kept.owes entry among asked).weaken (List.subset_append_left _ packets) holders
      rcases owes with ⟨response, answered, fits⟩ | ⟨holder, held, serving⟩
      · exact Or.inl ⟨response, List.mem_append_left _ answered, fits⟩
      · exact owes_of_hands _ whole ⟨holder, List.mem_append_left _ held, serving⟩
          (List.subset_append_right _ _)
    · obtain ⟨⟨level, request⟩, among, same⟩ := List.mem_map.mp newer
      subst same
      apply owes_of_hands _ second ?_ (List.Subset.refl _)
      exact ⟨request.holder config.toConfig level,
        List.mem_append_right _ (List.mem_map.mpr ⟨(level, request), among, rfl⟩),
        serves_of_taken _ level request asked⟩
  · intro id
    obtain ⟨answers, moves, _sent⟩ := whole
    have counted := moves.countP_le id
    have before := kept.once id
    rw [← holders] at before
    rw [List.countP_append, List.countP_map] at counted
    rw [List.countP_append, List.countP_map, List.countP_map]
    have taken : List.countP ((fun holder : Holder Place => decide (id ∈ holder.tokens)) ∘
        fun taken : Nat × Request => taken.2.holder config.toConfig taken.1)
          served.initiateTagChecks.taken =
        List.countP (fun taken : Nat × Request => decide (id ∈ taken.2.instrDependOnMe))
          served.initiateTagChecks.taken := rfl
    rw [taken] at counted
    exact Nat.le_trans counted (Nat.add_le_add_right before _)

theorem Kept.same {before after : Pipeline config Module} {ledger : Ledger}
    (kept : before.Kept ledger) (silent : after.Silent) (holders : after.holders = before.holders) :
    after.Kept ledger := by
  refine ⟨silent, ?_, ?_⟩
  · intro taken member asked
    exact (kept.owes taken member asked).weaken (List.Subset.refl _) holders
  · rw [holders]
    exact kept.once

theorem step_kept (hooks : CycleModules Module) (pipeline next : Pipeline config Module)
    (ledger : Ledger) (label : Step Module) (kept : pipeline.Kept ledger)
    (stepped : pipeline.step hooks label = some next) :
    next.Kept (noteTaken hooks pipeline label ledger) := by
  cases label with
  | operate => exact pipeline.operate_kept hooks next ledger kept stepped
  | upperLevels channels =>
      cases stepped
      exact kept.same ⟨kept.silent.own, kept.silent.areLocal⟩ rfl
  | lowerQueues rq pq wq =>
      cases stepped
      exact kept.same ⟨kept.silent.own, kept.silent.areLocal⟩ rfl
  | answer response =>
      cases stepped
      exact kept.same ⟨kept.silent.own, kept.silent.areLocal⟩ rfl
  | translations channel =>
      cases stepped
      exact kept.same ⟨kept.silent.own, kept.silent.areLocal⟩ rfl
  | branchOperate modules calls =>
      obtain ⟨added, simStats, issued, asked⟩ := pipeline.toState.prefetchLines_shape calls
      cases stepped
      rw [asked]
      exact kept.same ⟨kept.silent.own.append issued, kept.silent.areLocal⟩ rfl
  | beginPhase warmup =>
      cases stepped
      exact kept.same ⟨kept.silent.own, kept.silent.areLocal⟩ rfl
  | invalidateEntry invalAddr =>
      cases stepped
      obtain ⟨block, same⟩ := pipeline.invalidateEntry_shape invalAddr
      rw [same]
      exact kept.same ⟨kept.silent.own, kept.silent.areLocal⟩ rfl

theorem kept_of_idle {pipeline : Pipeline config Module} (idle : Idle pipeline) :
    pipeline.Kept {} := by
  have lookups : pipeline.lookups = [] := by
    unfold lookups
    rw [idle.inflightTagCheck, idle.translationStash]
    rfl
  have holders : pipeline.holders = [] := by
    unfold holders State.recordHolders
    rw [lookups, idle.mshr, idle.inflightWrites]
    rfl
  refine ⟨⟨?_, ?_⟩, ?_, ?_⟩
  · unfold Own
    rw [idle.internalPq]
    exact Issued.nil
  · rw [lookups]
    intro entry member
    cases member
  · intro taken member
    cases member
  · rw [holders]
    intro id
    exact Nat.le_refl 0

theorem ledgers_kept (hooks : CycleModules Module) (start : Pipeline config Module)
    (idle : Idle start) (labels : List (Step Module)) (reached : Pipeline config Module × Ledger)
    (ran : (ledgers hooks).run (start, {}) labels = some reached) : reached.1.Kept reached.2 := by
  apply (ledgers hooks).run_invariant (fun noted => noted.1.Kept noted.2) ?_ labels (start, {})
    reached (kept_of_idle idle) ran
  intro noted label next before stepped
  obtain ⟨moved, recorded⟩ := ((cycles hooks).record_step_iff _ _ _ _).mp stepped
  rw [← recorded]
  exact step_kept hooks noted.1 next.1 noted.2 label before moved

def carriers (pipeline : Pipeline config Module) (taken : Taken) : Nat :=
  pipeline.holders.countP taken.carriedBy

/-- A request that is taken is answered or carried by a record in flight, and
by one record only when it alone names one of its instructions. -/
theorem ledgers_answered_or_carried (hooks : CycleModules Module) (start : Pipeline config Module)
    (idle : Idle start) (labels : List (Step Module)) (reached : Pipeline config Module × Ledger)
    (ran : (ledgers hooks).run (start, {}) labels = some reached) (taken : Taken)
    (member : taken ∈ reached.2.taken) (asked : taken.request.responseRequested = true) :
    (∃ response ∈ taken.answered,
        taken.AnsweredBy config reached.2.translations response) ∨
      1 ≤ reached.1.carriers taken ∧
        ((∃ id ∈ taken.request.instrDependOnMe, reached.2.taken.countP
            (fun other => decide (id ∈ other.request.instrDependOnMe)) = 1) →
          reached.1.carriers taken = 1) := by
  have kept := ledgers_kept hooks start idle labels reached ran
  rcases kept.owes taken member asked with answered | ⟨holder, held, serving⟩
  · exact Or.inl answered
  · have carried : 1 ≤ reached.1.carriers taken :=
      List.countP_pos_iff.mpr ⟨holder, held, decide_eq_true ⟨serving.toReturn, serving.tokens⟩⟩
    refine Or.inr ⟨carried, ?_⟩
    rintro ⟨id, listed, alone⟩
    have fewer : reached.1.carriers taken ≤
        reached.1.holders.countP (fun other => decide (id ∈ other.tokens)) := by
      apply List.countP_mono_left
      intro other _among carries
      exact decide_eq_true ((of_decide_eq_true carries).2 id listed)
    have once := kept.once id
    omega

end Pipeline

/-! ### Two loads of one instruction -/

/-- Loads of the given blocks by instruction 7 are looked up. -/
def loadsOf (addresses : List Address) : List (Step Unit) :=
  [.upperLevels (requestsAbove
    (addresses.map (fun address => { address, instrDependOnMe := [7] })) []), .operate]

private theorem loadOne_takes :
    ((ledgers silentCycle).run (idleCache, {}) (loadsOf [0x40])).any (fun reached =>
      reached.2.taken.any (fun taken => taken.request.responseRequested)) = true := by
  decide +kernel

theorem ledgers_answered_or_carried_load :
    ∃ reached taken, (ledgers silentCycle).run (idleCache, {}) (loadsOf [0x40]) = some reached ∧
      taken ∈ reached.2.taken ∧
      ((∃ response ∈ taken.answered, taken.AnsweredBy twoWays reached.2.translations response) ∨
        1 ≤ reached.1.carriers taken ∧
          ((∃ id ∈ taken.request.instrDependOnMe, reached.2.taken.countP
              (fun other => decide (id ∈ other.request.instrDependOnMe)) = 1) →
            reached.1.carriers taken = 1)) := by
  obtain ⟨reached, ran, takes⟩ := (Option.any_eq_true _ _).mp loadOne_takes
  obtain ⟨taken, member, asked⟩ := List.any_eq_true.mp takes
  exact ⟨reached, taken, ran, member, Pipeline.ledgers_answered_or_carried silentCycle idleCache
    idleCache_idle (loadsOf [0x40]) reached ran taken member asked⟩

private theorem loadTwo_carriedTwice :
    ((ledgers silentCycle).run (idleCache, {}) (loadsOf [0x40, 0x80])).any (fun reached =>
      reached.2.taken.any (fun taken => taken.request.responseRequested && taken.answered.isEmpty &&
        decide (reached.1.carriers taken = 2))) = true := by
  decide +kernel

/-- Two loads of one instruction are carried by two records, and each of them
names the level and the instruction. -/
theorem loadTwo_not_carriedOnce :
    ¬∀ labels reached, (ledgers silentCycle).run (idleCache, {}) labels = some reached →
      ∀ taken ∈ reached.2.taken, taken.request.responseRequested = true →
        (∃ response ∈ taken.answered,
          taken.AnsweredBy twoWays reached.2.translations response) ∨
            reached.1.carriers taken = 1 := by
  intro once
  obtain ⟨reached, ran, takes⟩ := (Option.any_eq_true _ _).mp loadTwo_carriedTwice
  obtain ⟨taken, member, facts⟩ := List.any_eq_true.mp takes
  rw [Bool.and_eq_true, Bool.and_eq_true] at facts
  obtain ⟨⟨asked, unanswered⟩, twice⟩ := facts
  rcases once _ reached ran taken member asked with ⟨response, answered, _fits⟩ | single
  · rw [List.isEmpty_iff.mp unanswered] at answered
    cases answered
  · have both := of_decide_eq_true twice
    omega

end ChampSim.Cache

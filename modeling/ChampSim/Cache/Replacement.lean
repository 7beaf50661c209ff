/-
The calls that the replacement modules of a cache receive.

Modules may leave hooks out. A module without `replacement_cache_fill` is
documented to be updated on hits and on fills; one with it, when a tag check
completes. The fill of a module without the hook updates the other modules
instead, and the check of a miss that is refused updates with each new attempt.
-/

import ChampSim.Cache.Cycle
import Mathlib.Algebra.Order.BigOperators.Group.List

set_option autoImplicit false

namespace ChampSim.Cache

open Transition

/-! ### Modules -/

/-- The arguments of `update_replacement_state`. -/
structure UpdateCall where
  triggeringCpu : Nat
  set : Nat
  way : Nat
  fullAddr : Address
  ip : Address
  victimAddr : Address
  type : AccessType
  hit : Bool

/-- The arguments of `replacement_cache_fill`. -/
structure FillCall where
  triggeringCpu : Nat
  set : Nat
  way : Nat
  fullAddr : Address
  ip : Address
  victimAddr : Address
  type : AccessType

/-- The arguments of `find_victim`. -/
structure VictimCall where
  triggeringCpu : Nat
  instrId : Nat
  set : Nat
  currentSet : Int → CacheBlock
  ip : Address
  fullAddr : Address
  type : AccessType

structure ReplacementHooks (Policy : Type) where
  findVictim : Option (Policy → VictimCall → Policy × Int)
  updateReplacementState : Option (Policy → UpdateCall → Policy)
  replacementCacheFill : Option (Policy → FillCall → Policy)

inductive Training where
  | update (hit : Bool)
  | fill
deriving DecidableEq, Repr

/-- `calls` has the calls that the module has received, in order. -/
structure ReplacementModule (Policy : Type) where
  hooks : ReplacementHooks Policy
  policy : Policy
  calls : List Training := []

namespace ReplacementHooks

variable {Policy : Type}

def hasCacheFill (hooks : ReplacementHooks Policy) : Bool := hooks.replacementCacheFill.isSome

def hasUpdateState (hooks : ReplacementHooks Policy) : Bool := hooks.updateReplacementState.isSome

end ReplacementHooks

namespace ReplacementModule

variable {Policy : Type}

/-- `process_one` of `impl_update_replacement_state`. -/
def update (call : UpdateCall) (module : ReplacementModule Policy) : ReplacementModule Policy :=
  if call.hit || module.hooks.hasCacheFill then
    let newVictimAddr := if call.hit then 0 else call.victimAddr
    match module.hooks.updateReplacementState with
    | none => module
    | some updateReplacementState =>
        { module with
          policy := updateReplacementState module.policy { call with victimAddr := newVictimAddr }
          calls := module.calls ++ [.update call.hit] }
  else module

def fill (call : FillCall) (module : ReplacementModule Policy) : ReplacementModule Policy :=
  match module.hooks.replacementCacheFill with
  | none => module
  | some replacementCacheFill =>
      { module with
        policy := replacementCacheFill module.policy call
        calls := module.calls ++ [.fill] }

/-- A module without the hook keeps its policy and chooses way 0. -/
def victim (call : VictimCall) (module : ReplacementModule Policy) :
    ReplacementModule Policy × Int :=
  match module.hooks.findVictim with
  | none => (module, 0)
  | some findVictim =>
      let chosen := findVictim module.policy call
      ({ module with policy := chosen.1 }, chosen.2)

end ReplacementModule

/-! ### The attached modules -/

section Dispatch

variable {Policy : Type}

/-- The choice of the last module counts. -/
def implFindVictim (call : VictimCall) (modules : List (ReplacementModule Policy)) :
    List (ReplacementModule Policy) × Int :=
  (modules.map (fun module => (module.victim call).1),
    (modules.getLast?.map (fun module => (module.victim call).2)).getD 0)

def implUpdateReplacementState (call : UpdateCall) (modules : List (ReplacementModule Policy)) :
    List (ReplacementModule Policy) :=
  modules.map (ReplacementModule.update call)

/-- `process_one` of `impl_replacement_cache_fill`, which updates all modules
for one that does not define the hook. -/
def fillOne (call : FillCall) (modules : List (ReplacementModule Policy)) (index : Nat) :
    List (ReplacementModule Policy) :=
  match modules[index]? with
  | none => modules
  | some module =>
      if module.hooks.hasCacheFill then modules.modify index (ReplacementModule.fill call)
      else implUpdateReplacementState
        { triggeringCpu := call.triggeringCpu
          set := call.set
          way := call.way
          fullAddr := call.fullAddr
          ip := call.ip
          victimAddr := call.victimAddr
          type := call.type
          hit := false } modules

def implReplacementCacheFill (call : FillCall) (modules : List (ReplacementModule Policy)) :
    List (ReplacementModule Policy) :=
  (List.range modules.length).foldl (fillOne call) modules

/-- A cache with prefetchers of one state and a list of replacement modules. -/
def attach {Prefetcher : Type} (prefetchers : CycleModules Prefetcher) :
    CycleModules (Prefetcher × List (ReplacementModule Policy)) where
  findVictim modules triggeringCpu instrId set currentSet ip fullAddr type :=
    let chosen := implFindVictim
      { triggeringCpu, instrId, set, currentSet, ip, fullAddr, type } modules.2
    ((modules.1, chosen.1), chosen.2)
  updateReplacementState modules triggeringCpu set way fullAddr ip victimAddr type hit :=
    (modules.1, implUpdateReplacementState
      { triggeringCpu, set, way, fullAddr, ip, victimAddr, type, hit } modules.2)
  replacementCacheFill modules triggeringCpu set way fullAddr ip victimAddr type :=
    (modules.1, implReplacementCacheFill
      { triggeringCpu, set, way, fullAddr, ip, victimAddr, type } modules.2)
  prefetcherCacheOperate modules addr ip cacheHit usefulPrefetch type metadataIn :=
    let asked := prefetchers.prefetcherCacheOperate modules.1 addr ip cacheHit usefulPrefetch type
      metadataIn
    ((asked.1, modules.2), asked.2)
  prefetcherCacheFill modules addr set way prefetch evictedAddr metadataIn :=
    let asked := prefetchers.prefetcherCacheFill modules.1 addr set way prefetch evictedAddr
      metadataIn
    ((asked.1, modules.2), asked.2)
  prefetcherCycleOperate modules :=
    let asked := prefetchers.prefetcherCycleOperate modules.1
    ((asked.1, modules.2), asked.2)

end Dispatch

/-! ### What a cycle does to its modules -/

/-- A call of `try_hit`, or a fill that completes. -/
inductive Happening where
  | tagCheck (hit : Bool)
  | fill
deriving DecidableEq, Repr

/-- A tag check or a fill that completes, or the check of a miss that is
refused: it stays in `inflight_tag_check` and is checked again. -/
inductive Outcome where
  | tagCheck (hit : Bool)
  | refused
  | fill
deriving DecidableEq, Repr

def Outcome.happening : Outcome → Happening
  | .tagCheck hit => .tagCheck hit
  | .refused => .tagCheck false
  | .fill => .fill

/-- The outcomes of tag checks, from what `try_hit` answers for each and what is
then answered for each miss. -/
def checkOutcomes : List Bool → List Bool → List Outcome
  | [], _ => []
  | true :: hits, handled => .tagCheck true :: checkOutcomes hits handled
  | false :: hits, handled =>
      (if handled.headD false then .tagCheck false else .refused) ::
        checkOutcomes hits handled.tail

theorem checkOutcomes_happening (hits handled : List Bool) :
    (checkOutcomes hits handled).map Outcome.happening = hits.map .tagCheck := by
  induction hits generalizing handled with
  | nil => rfl
  | cons hit rest ih =>
      cases hit with
      | true => exact congrArg _ (ih handled)
      | false =>
          rw [checkOutcomes, List.map_cons, ih]
          split
          · rfl
          · rfl

namespace Pipeline

variable {config : OperateConfig} {Module : Type}

/-- The tag checks of a cycle, in the order of `try_hit`. -/
def tagChecks (hooks : Modules Module) (pipeline : Pipeline config Module) : List Outcome :=
  let checkable := fun entry => isReady pipeline.currentTime entry && entry.isTranslated
  let checks := Queue.span config.maxTag checkable pipeline.inflightTagCheck
  let hits := Queue.partition (State.tryHit hooks) pipeline.toState checks
  checkOutcomes (Queue.answers (State.tryHit hooks) pipeline.toState checks)
    (Queue.answers State.doHandleMiss hits.2 hits.1.2)

def outcomes (hooks : CycleModules Module) (pipeline : Pipeline config Module) :
    Option (List Outcome) := do
  let ready ← pipeline.fillStart
  let (filled, middle) ← ready.fillMshrs hooks.toModules
  let (written, _) ← State.fillSpan hooks.toModules middle.toState
    (Queue.span (config.maxFill - filled) (fillReady middle.currentTime) middle.inflightWrites)
  let served ← middle.fillWrites hooks.toModules (config.maxFill - filled)
  let issued ← served.initiateTagChecks.pipeline.issueTranslations
  return List.replicate (filled + written) .fill ++
    issued.stashUntranslated.tagChecks hooks.toModules

end Pipeline

/-- Whatever the hooks keep, with an event logged for each training. -/
structure Logs {Module : Type} (hooks : CycleModules Module)
    (Logged : List Happening → Module → Prop) : Prop where
  findVictim : ∀ log modules triggeringCpu instrId set currentSet ip fullAddr type,
    Logged log modules → Logged log
      (hooks.findVictim modules triggeringCpu instrId set currentSet ip fullAddr type).1
  cacheOperate : ∀ log modules addr ip cacheHit usefulPrefetch type metadataIn,
    Logged log modules → Logged log
      (hooks.prefetcherCacheOperate modules addr ip cacheHit usefulPrefetch type metadataIn).1
  cacheFill : ∀ log modules addr set way prefetch evictedAddr metadataIn,
    Logged log modules → Logged log
      (hooks.prefetcherCacheFill modules addr set way prefetch evictedAddr metadataIn).1
  cycleOperate : ∀ log modules, Logged log modules →
    Logged log (hooks.prefetcherCycleOperate modules).1
  update : ∀ log modules triggeringCpu set way fullAddr ip victimAddr type hit,
    Logged log modules → Logged (log ++ [.tagCheck hit])
      (hooks.updateReplacementState modules triggeringCpu set way fullAddr ip victimAddr type hit)
  fill : ∀ log modules triggeringCpu set way fullAddr ip victimAddr type,
    Logged log modules → Logged (log ++ [.fill])
      (hooks.replacementCacheFill modules triggeringCpu set way fullAddr ip victimAddr type)

namespace Logs

section OneState

variable {config : Config} {Module : Type} {hooks : CycleModules Module}
  {Logged : List Happening → Module → Prop} {log : List Happening}

theorem tryHit (logs : Logs hooks Logged) (state : State config Module) (handlePkt : TagLookup)
    (logged : Logged log state.modules) :
    Logged (log ++ [.tagCheck (State.tryHit hooks.toModules state handlePkt).1])
      (State.tryHit hooks.toModules state handlePkt).2.modules := by
  unfold State.tryHit
  dsimp only
  have asked : ∀ hit useful, Logged log
      (if config.shouldActivatePrefetcher handlePkt then
        hooks.prefetcherCacheOperate state.modules
          (config.moduleAddress handlePkt.address handlePkt.vAddress) handlePkt.ip hit useful
          handlePkt.type handlePkt.pfMetadata
      else (state.modules, [], handlePkt.pfMetadata)).1 := by
    intro hit useful
    split
    · exact logs.cacheOperate _ _ _ _ _ _ _ _ logged
    · exact logged
  have trained := fun modules way hit kept => logs.update log modules handlePkt.cpu
    (config.getSetIndex handlePkt.address) way
    (config.moduleAddress handlePkt.address handlePkt.vAddress) handlePkt.ip 0 handlePkt.type hit
    kept
  split
  · rename_i hit
    rw [State.respond_eq, hit]
    exact trained _ _ true (asked _ _)
  · rename_i missed
    rw [Bool.eq_false_iff.mpr missed]
    exact trained _ _ false (asked _ _)

theorem completeFill (logs : Logs hooks Logged) (state : State config Module) (fillMshr : Mshr)
    (way : Nat) (logged : Logged log state.modules) :
    Logged (log ++ [.fill]) (State.completeFill hooks.toModules state fillMshr way).modules := by
  unfold State.completeFill
  dsimp only
  rw [State.respond_eq]
  have trained := fun victimAddr modules kept => logs.fill log modules fillMshr.cpu
    (config.getSetIndex fillMshr.address) way
    (config.moduleAddress fillMshr.address fillMshr.vAddress) fillMshr.ip victimAddr fillMshr.type
    kept
  dsimp only [State.countStats]
  split
  · exact trained _ _ (logs.cacheFill _ _ _ _ _ _ _ _ logged)
  · exact trained _ _ (logs.cacheFill _ _ _ _ _ _ _ _ logged)

theorem handleFill (logs : Logs hooks Logged) (state next : State config Module) (fillMshr : Mshr)
    (filled : Bool) (logged : Logged log state.modules)
    (ran : State.handleFill hooks.toModules state fillMshr = some (filled, next)) :
    Logged (log ++ if filled then [.fill] else []) next.modules := by
  unfold State.handleFill at ran
  obtain ⟨⟨modules, way⟩, chosen, done⟩ := Option.map_eq_some_iff.mp ran
  have ready : Logged log modules := by
    unfold State.fillWay at chosen
    dsimp only at chosen
    split at chosen
    · cases chosen
      exact logged
    · split at chosen
      · cases chosen
        exact logs.findVictim _ _ _ _ _ _ _ _ _ logged
      · cases chosen
  dsimp only at done
  split at done
  · split at done
    · cases done
      rw [if_neg Bool.false_ne_true, List.append_nil]
      exact ready
    · cases done
      exact logs.completeFill _ fillMshr way ready
  · cases done
    exact logs.completeFill _ fillMshr way ready

theorem fillSpan (logs : Logs hooks Logged) (state last : State config Module)
    (queue : List Mshr) (count : Nat) (logged : Logged log state.modules)
    (ran : State.fillSpan hooks.toModules state queue = some (count, last)) :
    Logged (log ++ List.replicate count .fill) last.modules := by
  induction queue generalizing state count log with
  | nil =>
      cases ran
      rw [List.replicate_zero, List.append_nil]
      exact logged
  | cons entry rest ih =>
      obtain ⟨⟨filled, next⟩, fill, remaining⟩ := Option.bind_eq_some_iff.mp ran
      have kept := logs.handleFill state next entry filled logged fill
      cases filled with
      | false =>
          cases remaining
          exact kept
      | true =>
          obtain ⟨⟨others, reached⟩, filledRest, same⟩ := Option.map_eq_some_iff.mp remaining
          cases same
          have later := ih next others kept filledRest
          rw [List.append_assoc] at later
          exact later

end OneState

theorem performTagChecks {config : OperateConfig} {Module : Type} {hooks : CycleModules Module}
    {Logged : List Happening → Module → Prop} {log : List Happening} (logs : Logs hooks Logged)
    (pipeline : Pipeline config Module) (logged : Logged log pipeline.modules) :
    Logged (log ++ (pipeline.tagChecks hooks.toModules).map Outcome.happening)
      (pipeline.performTagChecks hooks.toModules).modules := by
  unfold Pipeline.performTagChecks Pipeline.tagChecks
  dsimp only
  rw [checkOutcomes_happening]
  generalize Queue.span config.maxTag _ pipeline.inflightTagCheck = checks
  have checked := Queue.partition_logs (State.tryHit hooks.toModules) Happening.tagCheck
    (fun events state => Logged events state.modules)
    (fun events state handlePkt before => logs.tryHit state handlePkt before) log pipeline.toState
    checks logged
  generalize Queue.partition (State.tryHit hooks.toModules) pipeline.toState checks = hits at checked ⊢
  apply Queue.partition_invariant State.doHandleMiss (fun state => Logged _ state.modules) hits.1.2
  · intro state handlePkt _member before
    rw [(state.doHandleMiss_frame handlePkt).1]
    exact before
  · exact checked

theorem operate {config : OperateConfig} {Module : Type} {hooks : CycleModules Module}
    {Logged : List Happening → Module → Prop} {log : List Happening} (logs : Logs hooks Logged)
    (pipeline next : Pipeline config Module) (logged : Logged log pipeline.modules)
    (ran : Pipeline.operate hooks pipeline = some next) :
    ∃ events, pipeline.outcomes hooks = some events ∧
      Logged (log ++ events.map Outcome.happening) next.modules := by
  obtain ⟨ready, served, starts, fills, checks⟩ := Pipeline.operate_parts hooks pipeline next ran
  obtain ⟨⟨filled, middle⟩, mshrs, writes⟩ := Option.bind_eq_some_iff.mp fills
  obtain ⟨issued, issues, done⟩ := Option.map_eq_some_iff.mp checks
  obtain ⟨⟨count, reached⟩, first, same⟩ := Option.map_eq_some_iff.mp mshrs
  obtain ⟨⟨written, last⟩, second, sameWrites⟩ := Option.map_eq_some_iff.mp writes
  cases same
  refine ⟨List.replicate (filled + written) .fill ++
    issued.stashUntranslated.tagChecks hooks.toModules, ?_, ?_⟩
  · simp only [Pipeline.outcomes, starts, mshrs, second, writes, issues, Option.bind_eq_bind,
      Option.bind_some, Option.pure_def]
  · have afterMshrs := logs.fillSpan ready.toState _ _ filled
      (Pipeline.fillStart_modules pipeline ready starts ▸ logged) first
    have afterWrites := logs.fillSpan { reached with mshr := reached.mshr.drop filled } last _ written
      afterMshrs second
    have kept : issued.stashUntranslated.modules = last.modules := by
      obtain ⟨uppers, order, internalPq, stashed, initiated, taken⟩ := served.initiateTagChecks_shape
      rw [taken] at issues
      obtain ⟨lookedUp, waits, channel, shape⟩ := Pipeline.issueTranslations_shape _ issued issues
      rw [shape, ← sameWrites]
      rfl
    rw [← kept, List.append_assoc, ← List.replicate_add] at afterWrites
    have afterChecks := logs.performTagChecks issued.stashUntranslated afterWrites
    rw [List.append_assoc] at afterChecks
    rw [← done, List.map_append, List.map_replicate]
    exact logs.cycleOperate _ _ afterChecks

end Logs

section Received

variable {Policy : Type}

/-- What the module at a position receives when a fill comes to another one. -/
def receivedFor (hooks : List (ReplacementHooks Policy)) (index : Nat)
    (own : ReplacementHooks Policy) (other : Nat) : List Training :=
  match hooks[other]? with
  | none => []
  | some others =>
      if others.hasCacheFill then
        if other = index ∧ own.hasCacheFill = true then [.fill] else []
      else if own.hasCacheFill && own.hasUpdateState then [.update false]
      else []

def received (hooks : List (ReplacementHooks Policy)) (index : Nat) (own : ReplacementHooks Policy) :
    Happening → List Training
  | .tagCheck hit =>
      if (hit || own.hasCacheFill) && own.hasUpdateState then [.update hit] else []
  | .fill => (List.range hooks.length).flatMap (receivedFor hooks index own)

/-- What a module is documented to receive: an update when a tag check completes
and the fill itself when it defines the hook, and else updates with hits and fills. -/
def documented (own : ReplacementHooks Policy) : Outcome → List Training
  | .tagCheck hit =>
      if (hit || own.hasCacheFill) && own.hasUpdateState then [.update hit] else []
  | .refused => []
  | .fill =>
      if own.hasCacheFill then [.fill]
      else if own.hasUpdateState then [.update false]
      else []

/-- Every module has received what the events of `log` send it. -/
structure Trained (hooks : List (ReplacementHooks Policy)) (log : List Happening)
    (modules : List (ReplacementModule Policy)) : Prop where
  sameHooks : modules.map ReplacementModule.hooks = hooks
  calls : ∀ index own, modules[index]? = some own →
    own.calls = log.flatMap (received hooks index own.hooks)

theorem update_hooks (call : UpdateCall) (own : ReplacementModule Policy) :
    (own.update call).hooks = own.hooks := by
  unfold ReplacementModule.update
  split
  · dsimp only
    split
    · rfl
    · rfl
  · rfl

theorem update_calls (call : UpdateCall) (own : ReplacementModule Policy) :
    (own.update call).calls = own.calls ++
      if (call.hit || own.hooks.hasCacheFill) && own.hooks.hasUpdateState then [.update call.hit]
      else [] := by
  unfold ReplacementModule.update ReplacementHooks.hasUpdateState
  by_cases due : (call.hit || own.hooks.hasCacheFill) = true
  · rw [if_pos due, due]
    dsimp only
    cases own.hooks.updateReplacementState with
    | none => exact (List.append_nil _).symm
    | some update => rfl
  · rw [if_neg due, Bool.eq_false_iff.mpr due]
    exact (List.append_nil _).symm

theorem fill_hooks (call : FillCall) (own : ReplacementModule Policy) :
    (own.fill call).hooks = own.hooks := by
  unfold ReplacementModule.fill
  split
  · rfl
  · rfl

theorem fill_calls (call : FillCall) (own : ReplacementModule Policy) :
    (own.fill call).calls = own.calls ++ if own.hooks.hasCacheFill then [.fill] else [] := by
  unfold ReplacementModule.fill ReplacementHooks.hasCacheFill
  cases own.hooks.replacementCacheFill with
  | none => exact (List.append_nil _).symm
  | some replacementCacheFill => rfl

theorem Trained.update {hooks : List (ReplacementHooks Policy)} {log : List Happening}
    {modules : List (ReplacementModule Policy)} (trained : Trained hooks log modules)
    (call : UpdateCall) :
    Trained hooks (log ++ [.tagCheck call.hit]) (implUpdateReplacementState call modules) := by
  constructor
  · rw [← trained.sameHooks, implUpdateReplacementState, List.map_map]
    exact List.map_congr_left (fun own _member => update_hooks call own)
  · intro index own read
    rw [implUpdateReplacementState, List.getElem?_map] at read
    obtain ⟨before, readBefore, same⟩ := Option.map_eq_some_iff.mp read
    rw [← same, update_hooks, update_calls, trained.calls index before readBefore,
      List.flatMap_append, List.flatMap_singleton]
    rfl

theorem fillOne_hooks (call : FillCall) (modules : List (ReplacementModule Policy)) (other : Nat) :
    (fillOne call modules other).map ReplacementModule.hooks =
      modules.map ReplacementModule.hooks := by
  unfold fillOne
  split
  · rfl
  · split
    · apply List.ext_getElem?
      intro index
      rw [List.getElem?_map, List.getElem?_map, List.getElem?_modify]
      cases modules[index]? with
      | none => rfl
      | some own =>
          change some (if other = index then own.fill call else own).hooks = some own.hooks
          split
          · rw [fill_hooks]
          · rfl
    · rw [implUpdateReplacementState, List.map_map]
      exact List.map_congr_left (fun own _member => update_hooks _ own)

theorem fillOne_calls (call : FillCall) (modules : List (ReplacementModule Policy)) (other index : Nat)
    (own : ReplacementModule Policy) (read : (fillOne call modules other)[index]? = some own) :
    ∃ before, modules[index]? = some before ∧ own.hooks = before.hooks ∧
      own.calls = before.calls ++
        receivedFor (modules.map ReplacementModule.hooks) index before.hooks other := by
  unfold fillOne at read
  unfold receivedFor
  rw [List.getElem?_map]
  cases found : modules[other]? with
  | none =>
      rw [found] at read
      exact ⟨own, read, rfl, (List.append_nil _).symm⟩
  | some chosen =>
      rw [found] at read
      dsimp only [Option.map_some] at read ⊢
      by_cases defines : chosen.hooks.hasCacheFill = true
      · simp only [if_pos defines] at read ⊢
        by_cases same : other = index
        · subst same
          rw [List.getElem?_modify_eq, found] at read
          cases read
          refine ⟨chosen, found, fill_hooks call chosen, ?_⟩
          rw [fill_calls, if_pos defines, if_pos ⟨rfl, defines⟩]
        · rw [List.getElem?_modify_ne _ _ same] at read
          refine ⟨own, read, rfl, ?_⟩
          rw [if_neg (fun both => same both.1), List.append_nil]
      · simp only [if_neg defines] at read ⊢
        rw [implUpdateReplacementState, List.getElem?_map] at read
        obtain ⟨before, readBefore, updated⟩ := Option.map_eq_some_iff.mp read
        refine ⟨before, readBefore, ?_, ?_⟩
        · rw [← updated, update_hooks]
        · rw [← updated, update_calls]
          rfl

theorem fillEach_calls (call : FillCall) (others : List Nat)
    (modules : List (ReplacementModule Policy)) :
    (others.foldl (fillOne call) modules).map ReplacementModule.hooks =
        modules.map ReplacementModule.hooks ∧
      ∀ index own, (others.foldl (fillOne call) modules)[index]? = some own →
        ∃ before, modules[index]? = some before ∧ own.hooks = before.hooks ∧
          own.calls = before.calls ++ others.flatMap
            (receivedFor (modules.map ReplacementModule.hooks) index before.hooks) := by
  induction others generalizing modules with
  | nil =>
      refine ⟨rfl, ?_⟩
      intro index own read
      exact ⟨own, read, rfl, (List.append_nil _).symm⟩
  | cons other rest ih =>
      obtain ⟨hooks, calls⟩ := ih (fillOne call modules other)
      refine ⟨hooks.trans (fillOne_hooks call modules other), ?_⟩
      intro index own read
      obtain ⟨middle, readMiddle, sameHooks, later⟩ := calls index own read
      obtain ⟨before, readBefore, same, first⟩ :=
        fillOne_calls call modules other index middle readMiddle
      refine ⟨before, readBefore, sameHooks.trans same, ?_⟩
      rw [later, first, fillOne_hooks, same, List.flatMap_cons, List.append_assoc]

theorem Trained.fill {hooks : List (ReplacementHooks Policy)} {log : List Happening}
    {modules : List (ReplacementModule Policy)} (trained : Trained hooks log modules)
    (call : FillCall) :
    Trained hooks (log ++ [.fill]) (implReplacementCacheFill call modules) := by
  obtain ⟨sameHooks, calls⟩ := fillEach_calls call (List.range modules.length) modules
  refine ⟨sameHooks.trans trained.sameHooks, ?_⟩
  intro index own read
  obtain ⟨before, readBefore, same, received⟩ := calls index own read
  have size : hooks.length = modules.length := by
    rw [← trained.sameHooks, List.length_map]
  rw [received, same, trained.calls index before readBefore, trained.sameHooks,
    List.flatMap_append, List.flatMap_singleton, ← size]
  rfl

theorem Trained.findVictim {hooks : List (ReplacementHooks Policy)} {log : List Happening}
    {modules : List (ReplacementModule Policy)} (trained : Trained hooks log modules)
    (call : VictimCall) : Trained hooks log (implFindVictim call modules).1 := by
  have kept : ∀ own : ReplacementModule Policy,
      (own.victim call).1.hooks = own.hooks ∧ (own.victim call).1.calls = own.calls := by
    intro own
    unfold ReplacementModule.victim
    split
    · exact ⟨rfl, rfl⟩
    · exact ⟨rfl, rfl⟩
  constructor
  · rw [← trained.sameHooks, implFindVictim, List.map_map]
    exact List.map_congr_left (fun own _member => (kept own).1)
  · intro index own read
    rw [implFindVictim, List.getElem?_map] at read
    obtain ⟨before, readBefore, same⟩ := Option.map_eq_some_iff.mp read
    rw [← same, (kept before).1, (kept before).2]
    exact trained.calls index before readBefore

/-! ### What the documentation says -/

private theorem range_single (size index : Nat) (within : index < size) (trainings : List Training) :
    (List.range size).flatMap (fun other => if other = index then trainings else []) =
      trainings := by
  induction size with
  | zero => omega
  | succ size ih =>
      rw [List.range_succ, List.flatMap_append, List.flatMap_singleton]
      by_cases last : size = index
      · have earlier : (List.range size).flatMap
            (fun other => if other = index then trainings else []) = [] := by
          rw [List.flatMap_eq_nil_iff]
          intro other member
          have before := List.mem_range.mp member
          rw [if_neg (by omega)]
        rw [earlier, if_pos last]
        rfl
      · rw [ih (by omega), if_neg last, List.append_nil]

/-- All modules define `replacement_cache_fill`, or none is ever updated. -/
def Complete (hooks : List (ReplacementHooks Policy)) : Prop :=
  (∀ own ∈ hooks, own.hasCacheFill = true) ∨ ∀ own ∈ hooks, own.hasUpdateState = false

theorem receivedFor_own (hooks : List (ReplacementHooks Policy)) (index other : Nat)
    (own others : ReplacementHooks Policy) (read : hooks[index]? = some own)
    (readOther : hooks[other]? = some others)
    (silent : others.hasCacheFill = true ∨ own.hasUpdateState = false) :
    receivedFor hooks index own other =
      if other = index then (if own.hasCacheFill then [.fill] else []) else [] := by
  unfold receivedFor
  rw [readOther]
  dsimp only
  by_cases defines : others.hasCacheFill = true
  · rw [if_pos defines, ite_and]
  · rw [if_neg defines, silent.resolve_left defines, Bool.and_false, if_neg Bool.false_ne_true]
    by_cases same : other = index
    · subst same
      cases read.symm.trans readOther
      rw [if_pos rfl, if_neg defines]
    · rw [if_neg same]

theorem received_fill (hooks : List (ReplacementHooks Policy)) (index : Nat)
    (own : ReplacementHooks Policy) (read : hooks[index]? = some own)
    (complete : Complete hooks) : received hooks index own .fill = documented own .fill := by
  have within : index < hooks.length := (List.getElem?_eq_some_iff.mp read).1
  have member := List.mem_of_getElem? read
  have toOwn : received hooks index own .fill =
      (List.range hooks.length).flatMap
        (fun other => if other = index then (if own.hasCacheFill then [.fill] else []) else []) := by
    apply List.flatMap_congr
    intro other inRange
    have readOther := List.getElem?_eq_getElem (List.mem_range.mp inRange)
    apply receivedFor_own hooks index other own _ read readOther
    rcases complete with allDefine | noneUpdates
    · exact Or.inl (allDefine _ (List.getElem_mem _))
    · exact Or.inr (noneUpdates own member)
  rw [toOwn, range_single _ _ within]
  unfold documented
  by_cases defines : own.hasCacheFill = true
  · rw [if_pos defines, if_pos defines]
  · rw [if_neg defines, if_neg defines]
    rcases complete with allDefine | noneUpdates
    · exact absurd (allDefine own member) defines
    · rw [noneUpdates own member, if_neg Bool.false_ne_true]

def Training.isUpdate : Training → Bool
  | .update _ => true
  | .fill => false

/-- No attached module is updated with a check that a miss repeats. -/
def Patient (hooks : List (ReplacementHooks Policy)) : Prop :=
  ∀ own ∈ hooks, own.hasCacheFill = false ∨ own.hasUpdateState = false

theorem documented_le (hooks : List (ReplacementHooks Policy)) (index : Nat)
    (own : ReplacementHooks Policy) (defines : own.hasCacheFill = true) (outcome : Outcome) :
    (documented own outcome).countP Training.isUpdate ≤
      (received hooks index own outcome.happening).countP Training.isUpdate := by
  cases outcome with
  | tagCheck hit => exact Nat.le_refl _
  | refused => exact Nat.zero_le _
  | fill =>
      have none : (documented own .fill).countP Training.isUpdate = 0 := by
        rw [documented, if_pos defines]
        rfl
      rw [none]
      exact Nat.zero_le _

theorem fill_lt (hooks : List (ReplacementHooks Policy)) (index : Nat)
    (own lacking : ReplacementHooks Policy) (member : lacking ∈ hooks)
    (lacks : lacking.hasCacheFill = false) (defines : own.hasCacheFill = true)
    (updates : own.hasUpdateState = true) :
    (documented own .fill).countP Training.isUpdate <
      (received hooks index own .fill).countP Training.isUpdate := by
  have extra : Training.update false ∈ received hooks index own .fill := by
    obtain ⟨other, within, same⟩ := List.mem_iff_getElem.mp member
    apply List.mem_flatMap.mpr
    refine ⟨other, List.mem_range.mpr within, ?_⟩
    rw [receivedFor, List.getElem?_eq_getElem within, same]
    dsimp only
    rw [lacks, if_neg Bool.false_ne_true, defines, updates]
    exact List.mem_cons_self
  have none : (documented own .fill).countP Training.isUpdate = 0 := by
    rw [documented, if_pos defines]
    rfl
  rw [none]
  exact List.countP_pos_iff.mpr ⟨_, extra, rfl⟩

theorem refused_lt (hooks : List (ReplacementHooks Policy)) (index : Nat)
    (own : ReplacementHooks Policy) (defines : own.hasCacheFill = true)
    (updates : own.hasUpdateState = true) :
    (documented own .refused).countP Training.isUpdate <
      (received hooks index own (Outcome.happening .refused)).countP Training.isUpdate := by
  change 0 < (received hooks index own (.tagCheck false)).countP Training.isUpdate
  unfold received
  dsimp only
  rw [defines, updates]
  exact Nat.one_pos

/-- One update more than documented shows in the calls of a whole log. -/
theorem received_ne (hooks : List (ReplacementHooks Policy)) (index : Nat)
    (own : ReplacementHooks Policy) (defines : own.hasCacheFill = true) (log : List Outcome)
    (outcome : Outcome) (present : outcome ∈ log)
    (more : (documented own outcome).countP Training.isUpdate <
      (received hooks index own outcome.happening).countP Training.isUpdate) :
    (log.map Outcome.happening).flatMap (received hooks index own) ≠
      log.flatMap (documented own) := by
  intro same
  have counts := congrArg (List.countP Training.isUpdate) same
  rw [List.flatMap_map, List.countP_flatMap, List.countP_flatMap] at counts
  exact Nat.ne_of_gt (List.sum_lt_sum _ _
    (fun other _member => documented_le hooks index own defines other)
    ⟨outcome, present, more⟩) counts

theorem received_lacking (hooks : List (ReplacementHooks Policy)) (index : Nat)
    (own : ReplacementHooks Policy) (lacks : own.hasCacheFill = false) (event : Happening) :
    Training.update false ∉ received hooks index own event := by
  intro member
  cases event with
  | tagCheck hit =>
      unfold received at member
      dsimp only at member
      rw [lacks, Bool.or_false] at member
      split at member
      · rename_i due
        cases List.mem_singleton.mp member
        cases due
      · cases member
  | fill =>
      obtain ⟨other, _inRange, sent⟩ := List.mem_flatMap.mp member
      unfold receivedFor at sent
      rw [lacks, Bool.false_and] at sent
      split at sent
      · cases sent
      · split at sent
        · split at sent
          · cases List.mem_singleton.mp sent
          · cases sent
        · cases sent

/-- What is documented is what a module receives, unless a fill updates it for
another module or a refused miss updates it again. -/
theorem received_documented (hooks : List (ReplacementHooks Policy)) (index : Nat)
    (own : ReplacementHooks Policy) (read : hooks[index]? = some own) (log : List Outcome)
    (fills : Complete hooks ∨ Outcome.fill ∉ log)
    (refusals : Patient hooks ∨ Outcome.refused ∉ log) :
    (log.map Outcome.happening).flatMap (received hooks index own) =
      log.flatMap (documented own) := by
  rw [List.flatMap_map]
  apply List.flatMap_congr
  intro outcome present
  cases outcome with
  | tagCheck hit => rfl
  | refused =>
      change received hooks index own (.tagCheck false) = []
      unfold received
      dsimp only
      have patient := refusals.resolve_right (not_not_intro present)
      rcases patient own (List.mem_of_getElem? read) with lacks | silent
      · rw [lacks]
        rfl
      · rw [silent, Bool.and_false, if_neg Bool.false_ne_true]
  | fill =>
      exact received_fill hooks index own read (fills.resolve_right (not_not_intro present))

theorem Trained.documented_iff {hooks : List (ReplacementHooks Policy)} {log : List Outcome}
    {modules : List (ReplacementModule Policy)}
    (trained : Trained hooks (log.map Outcome.happening) modules) :
    (∀ own ∈ modules, own.calls = log.flatMap (documented own.hooks)) ↔
      (Complete hooks ∨ Outcome.fill ∉ log) ∧ (Patient hooks ∨ Outcome.refused ∉ log) := by
  have readHooks : ∀ (index : Nat) (own : ReplacementModule Policy),
      modules[index]? = some own → hooks[index]? = some own.hooks := by
    intro index own read
    rw [← trained.sameHooks, List.getElem?_map, read]
    rfl
  have attachedModule : ∀ own ∈ hooks, ∃ (index : Nat) (module : ReplacementModule Policy),
      modules[index]? = some module ∧ module.hooks = own := by
    intro own member
    rw [← trained.sameHooks] at member
    obtain ⟨module, inModules, same⟩ := List.mem_map.mp member
    obtain ⟨index, read⟩ := List.mem_iff_getElem?.mp inModules
    exact ⟨index, module, read, same⟩
  constructor
  · intro agrees
    have both : ∀ (index : Nat) (own : ReplacementModule Policy), modules[index]? = some own →
        (log.map Outcome.happening).flatMap (received hooks index own.hooks) =
          log.flatMap (documented own.hooks) := by
      intro index own read
      rw [← trained.calls index own read]
      exact agrees own (List.mem_of_getElem? read)
    constructor
    · by_contra neither
      obtain ⟨incomplete, noFill⟩ := not_or.mp neither
      have filled := not_not.mp noFill
      obtain ⟨someLack, someUpdate⟩ := not_or.mp incomplete
      simp only [not_forall, Bool.not_eq_true, Bool.not_eq_false] at someLack someUpdate
      obtain ⟨lacking, lackingMember, lacks⟩ := someLack
      obtain ⟨updated, updatedMember, updates⟩ := someUpdate
      obtain ⟨index, own, read, same⟩ := attachedModule updated updatedMember
      subst same
      by_cases defines : own.hooks.hasCacheFill = true
      · exact received_ne hooks index own.hooks defines log .fill filled
          (fill_lt hooks index own.hooks lacking lackingMember lacks defines updates)
          (both index own read)
      · have told : Training.update false ∈ log.flatMap (documented own.hooks) := by
          apply List.mem_flatMap.mpr
          refine ⟨.fill, filled, ?_⟩
          rw [documented, if_neg defines, if_pos updates]
          exact List.mem_cons_self
        rw [← both index own read] at told
        obtain ⟨event, _present, sent⟩ := List.mem_flatMap.mp told
        exact received_lacking hooks index own.hooks (Bool.eq_false_iff.mpr defines) event sent
    · by_contra neither
      obtain ⟨impatient, noRefusal⟩ := not_or.mp neither
      have refused := not_not.mp noRefusal
      unfold Patient at impatient
      simp only [not_forall, not_or, Bool.not_eq_false] at impatient
      obtain ⟨updated, member, defines, updates⟩ := impatient
      obtain ⟨index, own, read, same⟩ := attachedModule updated member
      subst same
      exact received_ne hooks index own.hooks defines log .refused refused
        (refused_lt hooks index own.hooks defines updates) (both index own read)
  · rintro ⟨fills, refusals⟩ own member
    obtain ⟨index, read⟩ := List.mem_iff_getElem?.mp member
    rw [trained.calls index own read]
    exact received_documented hooks index own.hooks (readHooks index own read) log fills refusals

end Received

/-! ### Runs -/

section Attached

variable {Prefetcher Policy : Type} {hooks : List (ReplacementHooks Policy)}

theorem attach_logs (hooks : List (ReplacementHooks Policy))
    (prefetchers : CycleModules Prefetcher) :
    Logs (attach prefetchers) (fun log modules => Trained hooks log modules.2) := by
  constructor
  · intro log modules triggeringCpu instrId set currentSet ip fullAddr type trained
    exact trained.findVictim _
  · intro log modules addr ip cacheHit usefulPrefetch type metadataIn trained
    exact trained
  · intro log modules addr set way prefetch evictedAddr metadataIn trained
    exact trained
  · intro log modules trained
    exact trained
  · intro log modules triggeringCpu set way fullAddr ip victimAddr type hit trained
    exact trained.update
      { triggeringCpu, set, way, fullAddr, ip, victimAddr, type, hit }
  · intro log modules triggeringCpu set way fullAddr ip victimAddr type trained
    exact trained.fill _

variable {config : OperateConfig}

/-- The branch hook is one of prefetchers, not of replacement modules. -/
def keepReplacement
    (pipeline : Pipeline config (Prefetcher × List (ReplacementModule Policy))) :
    Step (Prefetcher × List (ReplacementModule Policy)) →
      Step (Prefetcher × List (ReplacementModule Policy))
  | .branchOperate modules calls => .branchOperate (modules.1, pipeline.modules.2) calls
  | label => label

/-- The cycles of a cache with these prefetchers and replacement modules. -/
def attached (prefetchers : CycleModules Prefetcher) :
    Machine (Pipeline config (Prefetcher × List (ReplacementModule Policy)))
      (Step (Prefetcher × List (ReplacementModule Policy))) where
  step pipeline label := pipeline.step (attach prefetchers) (keepReplacement pipeline label)

def noteOutcomes (prefetchers : CycleModules Prefetcher)
    (pipeline : Pipeline config (Prefetcher × List (ReplacementModule Policy))) :
    Step (Prefetcher × List (ReplacementModule Policy)) → List Outcome → List Outcome
  | .operate, log => log ++ (Pipeline.outcomes (attach prefetchers)
      { pipeline with currentTime := pipeline.currentTime + config.clockPeriod }).getD []
  | _, log => log

theorem attached_step_trained (prefetchers : CycleModules Prefetcher)
    (pipeline next : Pipeline config (Prefetcher × List (ReplacementModule Policy)))
    (log : List Outcome) (label : Step (Prefetcher × List (ReplacementModule Policy)))
    (trained : Trained hooks (log.map Outcome.happening) pipeline.modules.2)
    (stepped : (attached prefetchers).step pipeline label = some next) :
    Trained hooks ((noteOutcomes prefetchers pipeline label log).map Outcome.happening)
      next.modules.2 := by
  cases label with
  | operate =>
      obtain ⟨events, happened, kept⟩ := (attach_logs hooks prefetchers).operate
        { pipeline with currentTime := pipeline.currentTime + config.clockPeriod } next trained
        stepped
      unfold noteOutcomes
      rw [happened, Option.getD_some, List.map_append]
      exact kept
  | upperLevels channels =>
      cases stepped
      exact trained
  | lowerQueues rq pq wq =>
      cases stepped
      exact trained
  | answer response =>
      cases stepped
      exact trained
  | translations channel =>
      cases stepped
      exact trained
  | branchOperate modules calls =>
      cases stepped
      exact trained
  | beginPhase warmup =>
      cases stepped
      exact trained
  | invalidateEntry invalAddr =>
      cases stepped
      unfold Pipeline.invalidateEntry
      dsimp only
      split
      · exact trained
      · exact trained

/-- In every run, the modules have received what is documented exactly when
all define the fill hook, none is ever updated, or no fill has completed, and
when no miss has been refused or none is updated with a check that is repeated. -/
theorem attached_documented_iff (prefetchers : CycleModules Prefetcher)
    (start : Pipeline config (Prefetcher × List (ReplacementModule Policy)))
    (fresh : ∀ own ∈ start.modules.2, own.calls = [])
    (labels : List (Step (Prefetcher × List (ReplacementModule Policy))))
    (reached : Pipeline config (Prefetcher × List (ReplacementModule Policy)) × List Outcome)
    (ran : ((attached prefetchers).record (noteOutcomes prefetchers)).run (start, []) labels =
      some reached) :
    (∀ own ∈ reached.1.modules.2, own.calls = reached.2.flatMap (documented own.hooks)) ↔
      (Complete (start.modules.2.map ReplacementModule.hooks) ∨ Outcome.fill ∉ reached.2) ∧
        (Patient (start.modules.2.map ReplacementModule.hooks) ∨ Outcome.refused ∉ reached.2) := by
  apply Trained.documented_iff
  apply ((attached prefetchers).record (noteOutcomes prefetchers)).run_invariant
    (fun recorded => Trained (start.modules.2.map ReplacementModule.hooks)
      (recorded.2.map Outcome.happening) recorded.1.modules.2) ?_ labels (start, []) reached ?_ ran
  · intro recorded label next trained stepped
    obtain ⟨moved, noted⟩ := ((attached prefetchers).record_step_iff _ recorded next label).mp stepped
    rw [← noted]
    exact attached_step_trained prefetchers recorded.1 next.1 recorded.2 label trained moved
  · refine ⟨rfl, ?_⟩
    intro index own read
    exact fresh own (List.mem_of_getElem? read)

end Attached

/-! ### A module without the fill hook -/

/-- A policy that counts its updates, and defines the fill hook if asked to. -/
def counting (definesFill : Bool) : ReplacementModule Nat where
  hooks :=
    { findVictim := none
      updateReplacementState := some (fun count _call => count + 1)
      replacementCacheFill := if definesFill then some (fun count _call => count) else none }
  policy := 0

def idleAttached (modules : List (ReplacementModule Nat)) :
    Pipeline twoWays (Unit × List (ReplacementModule Nat)) where
  upperLevels := requestsAbove [] []
  lowerLevel := { rqSize := 4, pqSize := 4, wqSize := 4 }
  modules := ((), modules)
  upperOrder := [0]

def missAndFill : List (Step (Unit × List (ReplacementModule Nat))) :=
  [.upperLevels (requestsAbove [{ address := 0x40 }] []), .operate, .operate,
    .answer { address := 0x40 }, .operate, .operate, .operate, .operate]

def threeMisses : List (Step (Unit × List (ReplacementModule Nat))) :=
  [.upperLevels (requestsAbove [{ address := 0x40 }, { address := 0x80 }, { address := 0xc0 }] []),
    .operate, .operate, .operate]

private theorem threeMisses_refused :
    (((attached silentCycle).record (noteOutcomes silentCycle)).run
      (idleAttached [counting true], []) threeMisses).any (fun reached =>
        decide (Outcome.refused ∈ reached.2)) = true := by
  decide +kernel

private theorem missAndFill_lacking :
    (((attached silentCycle).record (noteOutcomes silentCycle)).run
      (idleAttached [counting false], []) missAndFill).any (fun reached =>
        !reached.1.modules.2.all (fun own =>
          decide (own.calls = reached.2.flatMap (documented own.hooks)))) = true := by
  decide +kernel

/-- The third miss is refused, and updates the module with each attempt. -/
theorem attached_documented_iff_threeMisses :
    ∃ reached, ((attached silentCycle).record (noteOutcomes silentCycle)).run
        (idleAttached [counting true], []) threeMisses = some reached ∧
      Outcome.refused ∈ reached.2 ∧
      ((∀ own ∈ reached.1.modules.2, own.calls = reached.2.flatMap (documented own.hooks)) ↔
        (Complete ([counting true].map ReplacementModule.hooks) ∨ Outcome.fill ∉ reached.2) ∧
          (Patient ([counting true].map ReplacementModule.hooks) ∨
            Outcome.refused ∉ reached.2)) := by
  obtain ⟨reached, ran, refused⟩ := (Option.any_eq_true _ _).mp threeMisses_refused
  have fresh : ∀ own ∈ (idleAttached [counting true]).modules.2, own.calls = [] := by
    intro own member
    cases List.mem_singleton.mp member
    rfl
  exact ⟨reached, ran, of_decide_eq_true refused,
    attached_documented_iff silentCycle (idleAttached [counting true]) fresh threeMisses reached
      ran⟩

/-- A fill does not update the module that leaves the fill to its updates. -/
theorem missAndFill_not_documented :
    ¬∀ modules labels reached,
      ((attached silentCycle).record (noteOutcomes silentCycle)).run
        (idleAttached modules, []) labels = some reached →
      (∀ own ∈ modules, own.calls = []) →
      ∀ own ∈ reached.1.modules.2, own.calls = reached.2.flatMap (documented own.hooks) := by
  intro always
  obtain ⟨reached, ran, differs⟩ := (Option.any_eq_true _ _).mp missAndFill_lacking
  have fresh : ∀ own ∈ [counting false], own.calls = [] := by
    intro own member
    cases List.mem_singleton.mp member
    rfl
  have agrees := always [counting false] missAndFill reached ran fresh
  have all : reached.1.modules.2.all (fun own =>
      decide (own.calls = reached.2.flatMap (documented own.hooks))) = true := by
    rw [List.all_eq_true]
    intro own member
    exact decide_eq_true (agrees own member)
  rw [all] at differs
  cases differs

end ChampSim.Cache

/-
The tag checks of a cache, noted beside a run.

Every request gets a number when it joins the packets that are looked up, and
the note follows the numbered packets through the stages of a cycle. It lists
the number of each request for which the prefetcher's hook was called, and of
each request whose miss was refused.
-/

import ChampSim.Cache.Cycle
import ChampSim.Library.Tickets

set_option autoImplicit false

namespace ChampSim.Cache

/-! ### Calls of the prefetcher's hook -/

/-- The same modules, which count the calls of `impl_prefetcher_cache_operate`. -/
def Modules.counting {Module : Type} (hooks : Modules Module) : Modules (Module × Nat) where
  findVictim modules triggeringCpu instrId set currentSet ip fullAddr type :=
    let found := hooks.findVictim modules.1 triggeringCpu instrId set currentSet ip fullAddr type
    ((found.1, modules.2), found.2)
  updateReplacementState modules triggeringCpu set way fullAddr ip victimAddr type hit :=
    (hooks.updateReplacementState modules.1 triggeringCpu set way fullAddr ip victimAddr type hit,
      modules.2)
  replacementCacheFill modules triggeringCpu set way fullAddr ip victimAddr type :=
    (hooks.replacementCacheFill modules.1 triggeringCpu set way fullAddr ip victimAddr type,
      modules.2)
  prefetcherCacheOperate modules addr ip cacheHit usefulPrefetch type metadataIn :=
    let asked :=
      hooks.prefetcherCacheOperate modules.1 addr ip cacheHit usefulPrefetch type metadataIn
    ((asked.1, modules.2 + 1), asked.2)
  prefetcherCacheFill modules addr set way prefetch evictedAddr metadataIn :=
    let filled := hooks.prefetcherCacheFill modules.1 addr set way prefetch evictedAddr metadataIn
    ((filled.1, modules.2), filled.2)

namespace State

variable {config : Config} {Module : Type}

def counting (state : State config Module) : State config (Module × Nat) :=
  { state with modules := (state.modules, 0) }

/-- How often `try_hit` calls `impl_prefetcher_cache_operate`. -/
def cacheOperateCalls (hooks : Modules Module) (state : State config Module)
    (handlePkt : TagLookup) : Nat :=
  (tryHit hooks.counting state.counting handlePkt).2.modules.2

theorem tryHit_modules {Other : Type} (hooks : Modules Other) (state : State config Other)
    (handlePkt : TagLookup) :
    ∃ hit usefulPrefetch way, (tryHit hooks state handlePkt).2.modules =
      hooks.updateReplacementState
        (if config.shouldActivatePrefetcher handlePkt then
          hooks.prefetcherCacheOperate state.modules
            (config.moduleAddress handlePkt.address handlePkt.vAddress) handlePkt.ip hit
            usefulPrefetch handlePkt.type handlePkt.pfMetadata
        else (state.modules, [], handlePkt.pfMetadata)).1 handlePkt.cpu
        (config.getSetIndex handlePkt.address) way
        (config.moduleAddress handlePkt.address handlePkt.vAddress) handlePkt.ip 0 handlePkt.type
        hit := by
  unfold tryHit
  dsimp only
  split
  · rw [respond_eq]
    exact ⟨_, _, _, rfl⟩
  · exact ⟨_, _, _, rfl⟩

theorem cacheOperateCalls_eq (hooks : Modules Module) (state : State config Module)
    (handlePkt : TagLookup) :
    cacheOperateCalls hooks state handlePkt =
      if config.shouldActivatePrefetcher handlePkt then 1 else 0 := by
  obtain ⟨hit, usefulPrefetch, way, modules⟩ :=
    tryHit_modules hooks.counting state.counting handlePkt
  unfold cacheOperateCalls
  rw [modules]
  by_cases activates : config.shouldActivatePrefetcher handlePkt = true
  · rw [if_pos activates, if_pos activates]
    rfl
  · rw [if_neg activates, if_neg activates]
    rfl

end State

/-! ### Numbered packets -/

/-- What is noted of the requests that joined the tag checks: each request as it
was, those that are looked up or stashed with their numbers, and the numbers of
those that the hook was called for or that were refused, once for each time. -/
structure CheckNotes where
  accepted : List TagLookup := []
  pending : List (TagLookup × Nat) := []
  stashed : List (TagLookup × Nat) := []
  calls : List Nat := []
  refusals : List Nat := []

def onEntry (change : TagLookup → TagLookup) (numbered : TagLookup × Nat) : TagLookup × Nat :=
  (change numbered.1, numbered.2)

namespace CheckNotes

variable {config : OperateConfig} {Module : Type}

def noteTranslation (config : OperateConfig) (notes : CheckNotes) (packet : Response) :
    CheckNotes :=
  let translated := notes.stashed.takeWhile (fun numbered => numbered.1.isTranslated)
  let waiting := notes.stashed.dropWhile (fun numbered => numbered.1.isTranslated)
  { notes with
    stashed := translated ++
      (waiting.filter (fun numbered => Pipeline.matchesVpage config packet numbered.1)).map
        (onEntry (Pipeline.markTranslated config packet)) ++
      waiting.filter (fun numbered => !Pipeline.matchesVpage config packet numbered.1)
    pending := notes.pending.map (onEntry (fun entry =>
      if Pipeline.matchesVpage config packet entry then Pipeline.markTranslated config packet entry
      else entry)) }

def noteTranslations (returned : Pipeline config Module) (notes : CheckNotes) : CheckNotes :=
  match returned.lowerTranslate with
  | none => notes
  | some channel => channel.returned.foldl (noteTranslation config) notes

def noteIntake (served : Pipeline config Module) (notes : CheckNotes) : CheckNotes :=
  let room := served.initiateBandwidth
  let translated := fun numbered : TagLookup × Nat => numbered.1.isTranslated
  let kept := notes.pending ++
    (Queue.span room translated notes.stashed).map (onEntry served.initiateTagCheck)
  let added := served.initiateTagChecks.pipeline.inflightTagCheck.drop kept.length
  { notes with
    accepted := notes.accepted ++ added
    pending := kept ++ added.zipIdx notes.accepted.length
    stashed := Queue.beyond room translated notes.stashed }

def noteIssue (issued : Pipeline config Module) (notes : CheckNotes) : CheckNotes :=
  { notes with
    pending := issued.inflightTagCheck.zip (notes.pending.map Prod.snd)
    stashed := issued.translationStash.zip (notes.stashed.map Prod.snd) }

def noteStash (issued : Pipeline config Module) (notes : CheckNotes) : CheckNotes :=
  let late := fun numbered : TagLookup × Nat =>
    Pipeline.isReady issued.currentTime numbered.1 && !numbered.1.isTranslated
  { notes with
    stashed := notes.stashed ++ notes.pending.filter late
    pending := notes.pending.filter (fun numbered => !late numbered) }

/-- The numbers of the requests for which the hook is called while they are checked. -/
def hookCalls (hooks : Modules Module) :
    State config.toConfig Module → List (TagLookup × Nat) → List Nat
  | _, [] => []
  | state, numbered :: rest =>
      List.replicate (state.cacheOperateCalls hooks numbered.1) numbered.2 ++
        hookCalls hooks (State.tryHit hooks state numbered.1).2 rest

def noteChecks (hooks : Modules Module) (ready : Pipeline config Module) (notes : CheckNotes) :
    CheckNotes :=
  let checkable := fun numbered : TagLookup × Nat =>
    Pipeline.isReady ready.currentTime numbered.1 && numbered.1.isTranslated
  let checked := Queue.span config.maxTag checkable notes.pending
  let hits := Queue.partition (fun state numbered => State.tryHit hooks state numbered.1)
    ready.toState checked
  let misses := Queue.partition (fun state numbered => State.doHandleMiss state numbered.1)
    hits.2 hits.1.2
  { notes with
    pending := misses.1.2 ++ Queue.beyond config.maxTag checkable notes.pending
    calls := notes.calls ++ hookCalls hooks ready.toState checked
    refusals := notes.refusals ++ misses.1.2.map Prod.snd }

def noteCycle (hooks : CycleModules Module) (begun : Pipeline config Module)
    (notes : CheckNotes) : CheckNotes :=
  let parts := do
    let returned ← begun.checkCollisions.finishPackets
    let served ← returned.finishTranslations.performFills hooks.toModules
    let issued ← served.initiateTagChecks.pipeline.issueTranslations
    let waiting := ((notes.noteTranslations returned).noteIntake served).noteIssue issued
    return (waiting.noteStash issued).noteChecks hooks.toModules issued.stashUntranslated
  parts.getD notes

def note (hooks : CycleModules Module) (pipeline : Pipeline config Module) (label : Step Module)
    (notes : CheckNotes) : CheckNotes :=
  match label with
  | .operate =>
      notes.noteCycle hooks { pipeline with currentTime := pipeline.currentTime + config.clockPeriod }
  | _ => notes

end CheckNotes

def checkedCycles {config : OperateConfig} {Module : Type} (hooks : CycleModules Module) :
    Transition.Machine (Pipeline config Module × CheckNotes) (Step Module) :=
  (cycles hooks).record (CheckNotes.note hooks)

end ChampSim.Cache

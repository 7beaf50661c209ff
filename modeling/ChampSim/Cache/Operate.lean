/-
One cycle of a cache, `CACHE::operate`.

The packets on their way to a tag check are added to the state: those that are
being looked up, those that wait for a translation, and the channel that
translates. A cycle finishes returns and translations, fills, takes requests
from above and checks tags, in this order.

The progress that `operate` reports is left out: only the deadlock detector
reads it.
-/

import ChampSim.Cache.Operation
import ChampSim.Cache.Collision
import ChampSim.Library.Queue

set_option autoImplicit false

namespace ChampSim.Cache

/-- `upperOffsetBits` and `upperMatchOffset` belong to the channels above. -/
structure OperateConfig extends Config where
  maxTag : Nat
  maxFill : Nat
  log2PageSize : Nat
  upperOffsetBits : Nat → Nat
  upperMatchOffset : Nat → Bool

structure CycleModules (Module : Type) extends Modules Module where
  prefetcherCycleOperate : Module → Module × List PrefetchLine

/-- `upperOrder` is the vector `upper_levels`, which rotates. -/
structure Pipeline (config : OperateConfig) (Module : Type)
    extends State config.toConfig Module where
  inflightTagCheck : List TagLookup := []
  translationStash : List TagLookup := []
  lowerTranslate : Option Channel := none
  upperOrder : List Nat

inductive QueueName where
  | wq
  | rq
  | pq
deriving DecidableEq, Repr

def Channel.queue (channel : Channel) : QueueName → List Request
  | .wq => channel.wq
  | .rq => channel.rq
  | .pq => channel.pq

def Channel.withQueue (channel : Channel) (requests : List Request) : QueueName → Channel
  | .wq => { channel with wq := requests }
  | .rq => { channel with rq := requests }
  | .pq => { channel with pq := requests }

namespace State

variable {config : Config} {Module : Type}

/-- The records that are filled, up to the first that is refused. -/
def fillSpan (hooks : Modules Module) (state : State config Module) :
    List Mshr → Option (Nat × State config Module)
  | [] => some (0, state)
  | entry :: rest =>
      (handleFill hooks state entry).bind fun (filled, next) =>
        if filled then (fillSpan hooks next rest).map fun (count, last) => (count + 1, last)
        else some (0, next)

def doHandleMiss (state : State config Module) (pkt : TagLookup) : Bool × State config Module :=
  if pkt.type = .write ∧ config.matchOffsetBits = false then state.handleWrite pkt
  else state.handleMiss pkt

end State

namespace Pipeline

variable {config : OperateConfig} {Module : Type}

/-! ### Returns and translations -/

def updateUpper (pipeline : Pipeline config Module) (level : Nat) (change : Channel → Channel) :
    Pipeline config Module :=
  { pipeline with
    upperLevels := fun other =>
      if other = level then change (pipeline.upperLevels other) else pipeline.upperLevels other }

def checkCollisions (pipeline : Pipeline config Module) : Pipeline config Module :=
  pipeline.upperOrder.foldl (fun checked level => checked.updateUpper level
    (Channel.checkCollision (config.upperOffsetBits level) (config.upperMatchOffset level)))
    pipeline

def finishPackets (pipeline : Pipeline config Module) : Option (Pipeline config Module) :=
  (pipeline.lowerLevel.returned.foldlM State.finishPacket pipeline.toState).map fun state =>
    { pipeline with toState := { state with lowerLevel := { state.lowerLevel with returned := [] } } }

def matchesVpage (config : OperateConfig) (packet : Response) (entry : TagLookup) : Bool :=
  decide (entry.vAddress.sliceUpper config.log2PageSize =
    packet.vAddress.sliceUpper config.log2PageSize) && !entry.isTranslated

def markTranslated (config : OperateConfig) (packet : Response) (entry : TagLookup) : TagLookup :=
  { entry with
    address := Address.splice packet.data entry.vAddress config.log2PageSize
    isTranslated := true }

def finishTranslation (pipeline : Pipeline config Module) (packet : Response) :
    Pipeline config Module :=
  let translated := pipeline.translationStash.takeWhile (fun entry => entry.isTranslated)
  let waiting := pipeline.translationStash.dropWhile (fun entry => entry.isTranslated)
  { pipeline with
    translationStash := translated ++
      (waiting.filter (matchesVpage config packet)).map (markTranslated config packet) ++
      waiting.filter (fun entry => !matchesVpage config packet entry)
    inflightTagCheck := pipeline.inflightTagCheck.map (fun entry =>
      if matchesVpage config packet entry then markTranslated config packet entry else entry) }

def finishTranslations (pipeline : Pipeline config Module) : Pipeline config Module :=
  match pipeline.lowerTranslate with
  | none => pipeline
  | some channel =>
      { channel.returned.foldl finishTranslation pipeline with
        lowerTranslate := some { channel with returned := [] } }

/-! ### Fills -/

def fillReady (time : Nat) (entry : Mshr) : Bool := entry.dataPromise.isReadyAt time

def fillMshrs (hooks : Modules Module) (pipeline : Pipeline config Module) :
    Option (Nat × Pipeline config Module) :=
  (State.fillSpan hooks pipeline.toState
    (Queue.span config.maxFill (fillReady pipeline.currentTime) pipeline.mshr)).map
    fun (filled, state) =>
      (filled, { pipeline with toState := { state with mshr := state.mshr.drop filled } })

def fillWrites (hooks : Modules Module) (bandwidth : Nat) (pipeline : Pipeline config Module) :
    Option (Pipeline config Module) :=
  (State.fillSpan hooks pipeline.toState
    (Queue.span bandwidth (fillReady pipeline.currentTime) pipeline.inflightWrites)).map
    fun (filled, state) =>
      { pipeline with
        toState := { state with inflightWrites := state.inflightWrites.drop filled } }

def performFills (hooks : Modules Module) (pipeline : Pipeline config Module) :
    Option (Pipeline config Module) :=
  (pipeline.fillMshrs hooks).bind fun (filled, next) =>
    next.fillWrites hooks (config.maxFill - filled)

/-! ### New tag checks -/

def initiateTagCheck (pipeline : Pipeline config Module) (entry : TagLookup) : TagLookup :=
  { entry with
    eventCycle := some (pipeline.currentTime + (if pipeline.warmup then 0 else config.hitLatency)) }

def initiateRequest (pipeline : Pipeline config Module) (level : Nat) (request : Request) :
    TagLookup :=
  { pipeline.initiateTagCheck (TagLookup.ofRequest request false false) with
    toReturn := if request.responseRequested then [level] else [] }

/-- The bandwidth for tag checks that remains, and the requests taken so far
from the levels above. -/
structure Intake (config : OperateConfig) (Module : Type) where
  pipeline : Pipeline config Module
  remaining : Nat
  taken : List (Nat × Request) := []

def takeRequests (avail : Bool) (perUpper : Nat) (intake : Intake config Module)
    (source : Nat × QueueName) : Intake config Module :=
  let pipeline := intake.pipeline
  let queue := (pipeline.upperLevels source.1).queue source.2
  let canTranslate := fun request : Request => avail || request.isTranslated
  let bandwidth := min perUpper intake.remaining
  let requests := Queue.span bandwidth canTranslate queue
  { pipeline :=
      { pipeline.updateUpper source.1
          (fun channel => channel.withQueue (Queue.beyond bandwidth canTranslate queue) source.2) with
        inflightTagCheck :=
          pipeline.inflightTagCheck ++ requests.map (pipeline.initiateRequest source.1) }
    remaining := intake.remaining - requests.length
    taken := intake.taken ++ requests.map (fun request => (source.1, request)) }

def sources (order : List Nat) : List (Nat × QueueName) :=
  order.flatMap (fun level => [(level, .wq), (level, .rq), (level, .pq)])

/-- `std::clamp(MAX_TAG * (HIT_LATENCY / clock_period) - size, 0, MAX_TAG)`. -/
def initiateBandwidth (pipeline : Pipeline config Module) : Nat :=
  min (config.maxTag * (config.hitLatency / config.clockPeriod) - pipeline.inflightTagCheck.length)
    config.maxTag

/-- The stash, whose translated entries come first. -/
def restartStash (pipeline : Pipeline config Module) : Intake config Module :=
  let translated := fun entry : TagLookup => entry.isTranslated
  let room := pipeline.initiateBandwidth
  let restarted := Queue.span room translated pipeline.translationStash
  { pipeline :=
      { pipeline with
        inflightTagCheck :=
          pipeline.inflightTagCheck ++ restarted.map pipeline.initiateTagCheck
        translationStash := Queue.beyond room translated pipeline.translationStash }
    remaining := room - restarted.length }

def rotateUpper (intake : Intake config Module) : Intake config Module :=
  { intake with
    pipeline := { intake.pipeline with
      upperOrder :=
        if 1 < intake.pipeline.upperOrder.length then intake.pipeline.upperOrder.rotate 1
        else intake.pipeline.upperOrder } }

def takeFromUpper (avail : Bool) (intake : Intake config Module) : Intake config Module :=
  let order := intake.pipeline.upperOrder
  let perUpper := if 1 ≤ order.length then max (intake.remaining / order.length) 1 else 0
  (sources order).foldl (takeRequests avail perUpper) intake

def takeInternal (avail : Bool) (intake : Intake config Module) : Intake config Module :=
  let pipeline := intake.pipeline
  let canTranslate := fun entry : TagLookup => avail || entry.isTranslated
  let prefetches := Queue.span intake.remaining canTranslate pipeline.internalPq
  { intake with
    pipeline :=
      { pipeline with
        inflightTagCheck :=
          pipeline.inflightTagCheck ++ prefetches.map pipeline.initiateTagCheck
        internalPq := Queue.beyond intake.remaining canTranslate pipeline.internalPq }
    remaining := intake.remaining - prefetches.length }

def initiateTagChecks (pipeline : Pipeline config Module) : Intake config Module :=
  let avail := decide (pipeline.translationStash.length < config.mshrSize)
  takeInternal avail (takeFromUpper avail (rotateUpper pipeline.restartStash))

/-! ### Translations -/

def translationPacket (entry : TagLookup) : Request :=
  { asid := entry.asid
    type := .load
    cpu := entry.cpu
    address := entry.address
    vAddress := entry.vAddress
    data := entry.data
    instrId := entry.instrId
    ip := entry.ip
    instrDependOnMe := entry.instrDependOnMe
    isTranslated := true }

/-- `none` when there is no lower level that translates. -/
def issueTranslation (lowerTranslate : Option Channel) (entry : TagLookup) :
    Option (TagLookup × Option Channel) :=
  if entry.translateIssued = false ∧ entry.isTranslated = false then
    lowerTranslate.map fun channel =>
      match channel.addRq (translationPacket entry) with
      | some issued => ({ entry with translateIssued := true }, some issued)
      | none => (entry, some channel)
  else some (entry, lowerTranslate)

def issueEach (lowerTranslate : Option Channel) :
    List TagLookup → Option (List TagLookup × Option Channel)
  | [] => some ([], lowerTranslate)
  | entry :: rest =>
      (issueTranslation lowerTranslate entry).bind fun (issued, channel) =>
        (issueEach channel rest).map fun (others, last) => (issued :: others, last)

def issueTranslations (pipeline : Pipeline config Module) : Option (Pipeline config Module) :=
  (issueEach pipeline.lowerTranslate pipeline.inflightTagCheck).bind fun (checks, channel) =>
    (issueEach channel pipeline.translationStash).map fun (stash, last) =>
      { pipeline with
        inflightTagCheck := checks
        translationStash := stash
        lowerTranslate := last }

/-! ### Tag checks -/

def isReady (time : Nat) (entry : TagLookup) : Bool :=
  entry.eventCycle.any (fun ready => decide (ready ≤ time))

def stashUntranslated (pipeline : Pipeline config Module) : Pipeline config Module :=
  let late := fun entry => isReady pipeline.currentTime entry && !entry.isTranslated
  { pipeline with
    translationStash := pipeline.translationStash ++ pipeline.inflightTagCheck.filter late
    inflightTagCheck := pipeline.inflightTagCheck.filter (fun entry => !late entry) }

def performTagChecks (hooks : Modules Module) (pipeline : Pipeline config Module) :
    Pipeline config Module :=
  let checkable := fun entry => isReady pipeline.currentTime entry && entry.isTranslated
  let hits := Queue.partition (State.tryHit hooks) pipeline.toState
    (Queue.span config.maxTag checkable pipeline.inflightTagCheck)
  let misses := Queue.partition State.doHandleMiss hits.2 hits.1.2
  { pipeline with
    toState := misses.2
    inflightTagCheck :=
      misses.1.2 ++ Queue.beyond config.maxTag checkable pipeline.inflightTagCheck }

def prefetcherCycleOperate (hooks : CycleModules Module) (pipeline : Pipeline config Module) :
    Pipeline config Module :=
  let asked := hooks.prefetcherCycleOperate pipeline.modules
  { pipeline with toState := { pipeline.toState.prefetchLines asked.2 with modules := asked.1 } }

/-! ### The cycle -/

def serveReturns (hooks : CycleModules Module) (pipeline : Pipeline config Module) :
    Option (Pipeline config Module) :=
  pipeline.checkCollisions.finishPackets.bind fun returned =>
    returned.finishTranslations.performFills hooks.toModules

def checkTags (hooks : CycleModules Module) (pipeline : Pipeline config Module) :
    Option (Pipeline config Module) :=
  pipeline.issueTranslations.map fun issued =>
    (issued.stashUntranslated.performTagChecks hooks.toModules).prefetcherCycleOperate hooks

def operate (hooks : CycleModules Module) (pipeline : Pipeline config Module) :
    Option (Pipeline config Module) :=
  (pipeline.serveReturns hooks).bind fun served => served.initiateTagChecks.pipeline.checkTags hooks

end Pipeline

end ChampSim.Cache

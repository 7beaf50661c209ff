/-
The member functions of a cache that look up, miss, return and fill a block.

A failed assertion of the source, or an iterator used past its end, is `none`.
-/

import ChampSim.Cache.State
import ChampSim.Library.Positions

set_option autoImplicit false

namespace ChampSim.Cache

namespace State

variable {config : Config} {Module : Type}

/-! ### Prefetches -/

def prefetchLine (state : State config Module) (call : PrefetchLine) : State config Module :=
  let state := state.countStats (fun stats => { stats with pfRequested := stats.pfRequested + 1 })
  if config.pqSize ≤ state.internalPq.length then state
  else
    let packet : Request :=
      { type := .prefetch
        pfMetadata := call.prefetchMetadata
        cpu := state.cpu
        address := call.pfAddr
        vAddress := if config.virtualPrefetch then call.pfAddr else 0
        isTranslated := !config.virtualPrefetch }
    { state with
      internalPq := state.internalPq ++ [TagLookup.ofRequest packet true (!call.fillThisLevel)]
      simStats := { state.simStats with pfIssued := state.simStats.pfIssued + 1 } }

def prefetchLines (state : State config Module) (calls : List PrefetchLine) :
    State config Module :=
  calls.foldl prefetchLine state

/-! ### Fills -/

/-- The first invalid way, or the one the replacement modules choose. The
choice `numWay` is a bypass, which a write may not take. -/
def fillWay (hooks : Modules Module) (state : State config Module) (fillMshr : Mshr) :
    Option (Module × Nat) :=
  let set := config.getSetIndex fillMshr.address
  let free := state.findWay set (fun block => !block.valid)
  if free < config.numWay then some (state.modules, free)
  else
    let chosen := hooks.findVictim state.modules fillMshr.cpu fillMshr.instrId set
      (state.block.get set).get fillMshr.ip fillMshr.address fillMshr.type
    if 0 ≤ chosen.2 ∧ chosen.2 ≤ config.numWay ∧
        (chosen.2 ≠ config.numWay ∨ fillMshr.type ≠ .write) then
      some (chosen.1, chosen.2.toNat)
    else none

def writebackPacket (fillMshr : Mshr) (victim : CacheBlock) : Request :=
  { cpu := fillMshr.cpu
    address := victim.address
    data := victim.data
    instrId := fillMshr.instrId
    ip := 0
    type := .write
    pfMetadata := victim.pfMetadata
    responseRequested := false }

/-- The statistics of a fill whose victim is `victim`, if it is not a bypass. -/
def fillStats (config : Config) (currentTime : Nat) (fillMshr : Mshr)
    (victim : Option CacheBlock) (stats : CacheStats) : CacheStats :=
  let latency : Int := Int.tdiv
    (currentTime - (fillMshr.timeEnqueued + config.clockPeriod)) config.clockPeriod
  { stats with
    pfUseless :=
      if victim.any (fun block => block.valid && block.prefetch) then stats.pfUseless + 1
      else stats.pfUseless
    pfFill :=
      if victim.isSome ∧ fillMshr.type = .prefetch then stats.pfFill + 1 else stats.pfFill
    totalMissLatencyCycles :=
      if fillMshr.type ≠ .prefetch then stats.totalMissLatencyCycles + latency
      else stats.totalMissLatencyCycles
    mshrReturn := stats.mshrReturn.increment fillMshr.type fillMshr.cpu }

/-- What `handle_fill` does once a dirty victim is written back. -/
def completeFill (hooks : Modules Module) (state : State config Module) (fillMshr : Mshr)
    (way : Nat) : State config Module :=
  let set := config.getSetIndex fillMshr.address
  let victim := if way = config.numWay then none else some (state.blockAt set way)
  let evicting := match victim with
    | some block => if block.valid then config.moduleAddress block.address block.vAddress else 0
    | none => 0
  let address := config.moduleAddress fillMshr.address fillMshr.vAddress
  let filled := hooks.prefetcherCacheFill state.modules address set way
    (decide (fillMshr.type = .prefetch)) evicting fillMshr.dataPromise.value.pfMetadata
  let replaced := hooks.replacementCacheFill filled.1 fillMshr.cpu set way address fillMshr.ip
    evicting fillMshr.type
  let prefetched := { state.prefetchLines filled.2.1 with modules := replaced }
  let installed := if way = config.numWay then prefetched
    else prefetched.setBlock set way (fillMshr.fillBlock filled.2.2)
  let counted := installed.countStats
    (fillStats config installed.currentTime fillMshr victim)
  counted.respond fillMshr.toReturn
    { address := fillMshr.address
      vAddress := fillMshr.vAddress
      data := fillMshr.dataPromise.value.data
      pfMetadata := filled.2.2
      instrDependOnMe := fillMshr.instrDependOnMe }

/-- `false` beside the state when the lower level refuses the writeback. -/
def handleFill (hooks : Modules Module) (state : State config Module) (fillMshr : Mshr) :
    Option (Bool × State config Module) :=
  (fillWay hooks state fillMshr).map fun (modules, way) =>
    let ready := { state with cpu := fillMshr.cpu, modules }
    let victim := state.blockAt (config.getSetIndex fillMshr.address) way
    if way ≠ config.numWay ∧ victim.valid = true ∧ victim.dirty = true then
      match state.lowerLevel.addWq (writebackPacket fillMshr victim) with
      | none => (false, ready)
      | some lowerLevel => (true, completeFill hooks { ready with lowerLevel } fillMshr way)
    else (true, completeFill hooks ready fillMshr way)

/-! ### Tag checks -/

def tryHit (hooks : Modules Module) (state : State config Module) (handlePkt : TagLookup) :
    Bool × State config Module :=
  let set := config.getSetIndex handlePkt.address
  let way := state.findWay set
    (fun block => block.valid && config.matchesAddress handlePkt.address block.address)
  let hit := decide (way ≠ config.numWay)
  let found := state.blockAt set way
  let usefulPrefetch := hit && found.prefetch && !handlePkt.prefetchFromThis
  let address := config.moduleAddress handlePkt.address handlePkt.vAddress
  let asked := if config.shouldActivatePrefetcher handlePkt then
      hooks.prefetcherCacheOperate state.modules address handlePkt.ip hit usefulPrefetch
        handlePkt.type handlePkt.pfMetadata
    else (state.modules, [], handlePkt.pfMetadata)
  let updated := hooks.updateReplacementState asked.1 handlePkt.cpu set way address handlePkt.ip 0
    handlePkt.type hit
  let checked := { prefetchLines { state with cpu := handlePkt.cpu } asked.2.1 with
    modules := updated }
  if hit then
    let counted := checked.countStats (fun stats =>
      { stats with
        hits := stats.hits.increment handlePkt.type handlePkt.cpu
        pfUseful := if usefulPrefetch then stats.pfUseful + 1 else stats.pfUseful })
    let answered := counted.respond handlePkt.toReturn
      { address := handlePkt.address
        vAddress := handlePkt.vAddress
        data := found.data
        pfMetadata := asked.2.2
        instrDependOnMe := handlePkt.instrDependOnMe }
    (true, answered.setBlock set way
      { found with
        dirty := found.dirty || decide (handlePkt.type = .write)
        prefetch := found.prefetch && !usefulPrefetch })
  else (false, checked)

/-! ### Misses -/

def mshrAndForwardPacket (state : State config Module) (handlePkt : TagLookup) : Mshr × Request :=
  (Mshr.ofTagLookup handlePkt state.currentTime,
    { asid := handlePkt.asid
      type := if handlePkt.type = .write then .rfo else handlePkt.type
      pfMetadata := handlePkt.pfMetadata
      cpu := handlePkt.cpu
      address := handlePkt.address
      vAddress := handlePkt.vAddress
      data := handlePkt.data
      instrId := handlePkt.instrId
      ip := handlePkt.ip
      instrDependOnMe := handlePkt.instrDependOnMe
      responseRequested := !handlePkt.prefetchFromThis || !handlePkt.skipFill })

def countMiss (state : State config Module) (handlePkt : TagLookup) : State config Module :=
  state.countStats (fun stats =>
    { stats with misses := stats.misses.increment handlePkt.type handlePkt.cpu })

/-- The branch of `handle_miss` for a miss that is already in flight. -/
def mergeMiss (state : State config Module) (index : Nat) (entry : Mshr)
    (handlePkt : TagLookup) : State config Module :=
  let toAllocate := Mshr.ofTagLookup handlePkt state.currentTime
  let useful := entry.type = .prefetch ∧ handlePkt.type ≠ .prefetch ∧ entry.prefetchFromThis = true
  let counted := state.countStats (fun stats =>
    { stats with
      pfUseful := if useful then stats.pfUseful + 1 else stats.pfUseful
      mshrMerge := stats.mshrMerge.increment toAllocate.type toAllocate.cpu })
  countMiss (counted.withMshr (state.mshr.set index (entry.merge toAllocate))) handlePkt

/-- The branch of `handle_miss` for a new miss. -/
def forwardMiss (state : State config Module) (handlePkt : TagLookup) :
    Bool × State config Module :=
  if state.mshr.length = config.mshrSize then (false, state)
  else
    let mshrPkt := state.mshrAndForwardPacket handlePkt
    let sendToRq := config.prefetchAsLoad = true ∨ handlePkt.type ≠ .prefetch
    match (if sendToRq then state.lowerLevel.addRq mshrPkt.2
        else state.lowerLevel.addPq mshrPkt.2) with
    | none => (false, state)
    | some lowerLevel =>
        let allocated := if mshrPkt.2.responseRequested then state.mshr ++ [mshrPkt.1]
          else state.mshr
        (true, countMiss { state.withMshr allocated with lowerLevel } handlePkt)

def handleMiss (state : State config Module) (handlePkt : TagLookup) :
    Bool × State config Module :=
  let entered := { state with cpu := handlePkt.cpu }
  let index := entered.mshrIndex handlePkt.address
  match entered.mshr[index]? with
  | some entry => (true, entered.mergeMiss index entry handlePkt)
  | none => entered.forwardMiss handlePkt

/-- A writeback from above is treated like a fill. -/
def handleWrite (state : State config Module) (handlePkt : TagLookup) :
    Bool × State config Module :=
  let toAllocate := Mshr.ofTagLookup handlePkt state.currentTime
  let ready := state.currentTime + (if state.warmup then 0 else config.fillLatency)
  (true, countMiss
    { state with
      inflightWrites := state.inflightWrites ++
        [{ toAllocate with dataPromise := toAllocate.dataPromise.readyAt ready }] } handlePkt)

/-! ### Returned packets -/

def finishPacket (state : State config Module) (packet : Response) :
    Option (State config Module) :=
  let index := state.mshrIndex packet.address
  let firstUnreturned := state.mshr.findIdx (fun entry => entry.dataPromise.hasUnknownReadiness)
  match state.mshr[index]? with
  | none => none
  | some entry =>
      let ready := state.currentTime + (if state.warmup then 0 else config.fillLatency)
      let finishedValue : ReturnedValue := { data := packet.data, pfMetadata := packet.pfMetadata }
      let finished := { entry with dataPromise := { value := finishedValue, eventCycle := some ready } }
      (Positions.swapAt (state.mshr.set index finished) index firstUnreturned).map state.withMshr

end State

end ChampSim.Cache

/-
One access of the signature path prefetcher: the signature of the page, the
training of the last one, and the lookahead along the most confident deltas.

The queues have as many entries as the cache has for misses, and nothing checks
a subscript of theirs. One outside of them is a fault.
-/

import ChampSim.Library.Loops
import ChampSim.Spp.Tables

set_option autoImplicit false

namespace ChampSim.Spp

open Outcome

/-- A product of `uint32_t`. -/
def mul32 (lhs rhs : Nat) : Nat := lhs * rhs % 2 ^ 32

/-- A call of `prefetch_line`. -/
structure Prefetch where
  addr : Address
  fillThisLevel : Bool
deriving DecidableEq, Repr

/-! ### The queues -/

structure Queues (config : SppConfig) where
  confidenceQ : CArray config.mshrSize Nat
  deltaQ : CArray config.mshrSize Int

namespace Queues

variable {config : SppConfig}

def initial (config : SppConfig) : Queues config where
  confidenceQ := (CArray.fill config.mshrSize 0).assign ⟨0, config.mshrPos⟩ 100
  deltaQ := CArray.fill config.mshrSize 0

def write (queues : Queues config) (index confidence : Nat) (delta : Int) :
    Except Fault (Queues config) :=
  if within : index < config.mshrSize then
    .ok
      { confidenceQ := queues.confidenceQ.assign ⟨index, within⟩ confidence
        deltaQ := queues.deltaQ.assign ⟨index, within⟩ delta }
  else .error .queueOutOfBounds

def writeConfidence (queues : Queues config) (index confidence : Nat) :
    Except Fault (Queues config) :=
  if within : index < config.mshrSize then
    .ok { queues with confidenceQ := queues.confidenceQ.assign ⟨index, within⟩ confidence }
  else .error .queueOutOfBounds

def read (queues : Queues config) (index : Nat) : Except Fault (Nat × Int) :=
  if within : index < config.mshrSize then
    .ok (queues.confidenceQ.cells ⟨index, within⟩, queues.deltaQ.cells ⟨index, within⟩)
  else .error .queueOutOfBounds

end Queues

/-! ### The pattern table, read -/

namespace PatternSet

def localConf (set : PatternSet) (way : Fin ptWay) : Nat :=
  mul32 100 (set.cDelta.cells way) / set.cSig

def pfConf (set : PatternSet) (accuracy depth lookaheadConf : Nat) (way : Fin ptWay) : Nat :=
  if depth ≠ 0 then
    mul32 (mul32 accuracy (set.cDelta.cells way) / set.cSig) lookaheadConf / 100
  else set.localConf way

end PatternSet

/-- The queues while the ways of a set are read, and the most confident way so far. -/
structure WayScan (config : SppConfig) where
  queues : Queues config
  pfQTail : Nat
  lookaheadWay : Option (Fin ptWay)
  maxConf : Nat

def WayScan.consider {config : SppConfig} (set : PatternSet) (conf : Fin ptWay → Nat)
    (scan : WayScan config) (way : Fin ptWay) : Except Fault (WayScan config) :=
  if pfThreshold ≤ conf way then do
    let queues ← scan.queues.write scan.pfQTail (conf way) (set.delta.cells way)
    .ok
      { queues := queues
        pfQTail := scan.pfQTail + 1
        lookaheadWay := if scan.maxConf < conf way then some way else scan.lookaheadWay
        maxConf := max scan.maxConf (conf way) }
  else .ok scan

/-- The variables of the lookahead loop, and what it changes outside of them. -/
structure Lookahead (config : SppConfig) where
  queues : Queues config
  pfQHead : Nat
  pfQTail : Nat
  lookaheadConf : Nat
  depth : Nat
  baseAddr : Address
  currSig : Nat
  filter : PrefetchFilter
  ghr : GlobalRegister
  prefetched : List Prefetch

namespace Lookahead

variable {config : SppConfig}

def readPattern (pt : PatternTable) (look : Lookahead config) :
    Except Fault (Lookahead config × Option (Fin ptWay)) :=
  let set := pt.cells (patternIndex look.currSig)
  if set.cSig ≠ 0 then do
    let scan ← (List.finRange ptWay).foldlM
      (WayScan.consider set (set.pfConf look.ghr.globalAccuracy look.depth look.lookaheadConf))
      { queues := look.queues, pfQTail := look.pfQTail, lookaheadWay := none, maxConf := 0 }
    .ok
      ({ look with
          queues := scan.queues
          pfQTail := scan.pfQTail + 1
          lookaheadConf := scan.maxConf
          depth := if pfThreshold ≤ scan.maxConf then look.depth + 1 else look.depth },
        scan.lookaheadWay)
  else do
    let queues ← look.queues.writeConfidence look.pfQTail 0
    .ok ({ look with queues := queues }, none)

/-! ### The prefetches of one step -/

def prefetchAddr (config : SppConfig) (baseAddr : Address) (delta : Int) : Address :=
  (config.blockNumber baseAddr + BitVec.ofInt 64 delta) <<< config.log2BlockSize

/-- The filter request of a prefetch with this confidence. -/
def prefetchRequest (confidence : Nat) : FilterRequest :=
  if fillThreshold ≤ confidence then .sppL2cPrefetch else .sppLlcPrefetch

/-- A prefetch in the page of the access, when the filter lets it pass. -/
def filtered (look : Lookahead config) (pfAddr : Address) (confidence : Nat) :
    Lookahead config :=
  let checked := check config look.filter look.ghr pfAddr (prefetchRequest confidence)
  if checked.1 then
    { look with
      filter := checked.2.1
      ghr := if fillThreshold ≤ confidence then checked.2.2.issue else checked.2.2
      prefetched := look.prefetched ++ [⟨pfAddr, decide (fillThreshold ≤ confidence)⟩] }
  else { look with filter := checked.2.1, ghr := checked.2.2 }

/-- A prefetch into another page is left in the global register. -/
def request (page : BitVec 64) (look : Lookahead config) (confidence : Nat) (delta : Int) :
    Except Fault (Lookahead config) :=
  let pfAddr := prefetchAddr config look.baseAddr delta
  if config.pageNumber pfAddr = page then .ok (look.filtered pfAddr confidence)
  else do
    let ghr ← look.ghr.updateEntry look.currSig confidence (config.pageOffset pfAddr) delta
    .ok { look with ghr := ghr }

/-- The loop body at an index, with `do_lookahead` beside the other variables. -/
def issueAt (page : BitVec 64) (state : Lookahead config × Bool) (index : Nat) :
    Except Fault (Lookahead config × Bool) := do
  let (confidence, delta) ← state.1.queues.read index
  if pfThreshold ≤ confidence then do
    let look ← state.1.request page confidence delta
    .ok ({ look with pfQHead := look.pfQHead + 1 }, true)
  else .ok state

def issueAll (page : BitVec 64) (look : Lookahead config) :
    Except Fault (Lookahead config × Bool) :=
  (List.range' look.pfQHead (look.pfQTail - look.pfQHead)).foldlM (issueAt page) (look, false)

/-- The update of `base_addr` and `curr_sig`. -/
def advance (pt : PatternTable) (look : Lookahead config) (lookaheadWay : Option (Fin ptWay)) :
    Lookahead config :=
  match lookaheadWay with
  | some way =>
      let delta := (pt.cells (patternIndex look.currSig)).delta.cells way
      { look with
        baseAddr := look.baseAddr + BitVec.ofInt 64 (delta * 2 ^ config.log2BlockSize)
        currSig := nextSig look.currSig delta }
  | none => look

def body (pt : PatternTable) (page : BitVec 64) (look : Lookahead config) :
    Except Fault (Lookahead config × Bool) := do
  let (read, lookaheadWay) ← look.readPattern pt
  let (issued, doLookahead) ← read.issueAll page
  .ok (issued.advance pt lookaheadWay, doLookahead)

def pass (pt : PatternTable) (page : BitVec 64) (look : Lookahead config) :
    Lookahead config ⊕ Except Fault (Lookahead config) :=
  match look.body pt page with
  | .error failure => .inr (.error failure)
  | .ok (next, true) => .inl next
  | .ok (next, false) => .inr (.ok next)

/-- The loop. Each pass that goes on moves the head, so that these passes are enough. -/
def lookahead (pt : PatternTable) (page : BitVec 64) (look : Lookahead config) :
    Except Fault (Lookahead config) :=
  match Loops.run (pass pt page) (config.mshrSize + 2) look with
  | some result => result
  | none => .error .unfinished

end Lookahead

/-! ### The prefetcher -/

structure Prefetcher where
  st : SignatureTable
  pt : PatternTable
  filter : PrefetchFilter
  ghr : GlobalRegister

namespace Prefetcher

def initial : Prefetcher where
  st := SignatureTable.initial
  pt := CArray.fill ptSet {}
  filter := CArray.fill filterSet {}
  ghr := {}

/-- The value that `global_accuracy` takes at an access. -/
def accuracy (ghr : GlobalRegister) : Nat :=
  if ghr.pfIssued ≠ 0 then mul32 100 ghr.pfUseful / ghr.pfIssued else 0

/-- Stage 2. -/
def train (pt : PatternTable) (read : SigRead) : Except Fault PatternTable :=
  if read.lastSig ≠ 0 then updatePattern pt read.lastSig read.delta else .ok pt

def startLookahead (config : SppConfig) (filter : PrefetchFilter) (ghr : GlobalRegister)
    (addr : Address) (currSig : Nat) : Lookahead config where
  queues := Queues.initial config
  pfQHead := 0
  pfQTail := 0
  lookaheadConf := 100
  depth := 0
  baseAddr := addr
  currSig := currSig
  filter := filter
  ghr := ghr
  prefetched := []

/-- `prefetcher_cache_operate`, with the prefetches that it asks for. -/
def cacheOperate (config : SppConfig) (spp : Prefetcher) (addr : Address) :
    Except Fault (Prefetcher × List Prefetch) := do
  let ghr := { spp.ghr with globalAccuracy := accuracy spp.ghr }
  let read ← spp.st.readAndUpdateSig config ghr addr
  let demanded := check config spp.filter ghr addr .l2cDemand
  let pt ← train spp.pt read
  let look ← (startLookahead config demanded.2.1 demanded.2.2 addr read.currSig).lookahead pt
    (config.pageNumber addr)
  .ok ({ st := read.st, pt := pt, filter := look.filter, ghr := look.ghr }, look.prefetched)

/-- `prefetcher_cache_fill`. -/
def cacheFill (config : SppConfig) (spp : Prefetcher) (evictedAddr : Address) : Prefetcher :=
  let evicted := check config spp.filter spp.ghr evictedAddr .l2cEvict
  { spp with filter := evicted.2.1, ghr := evicted.2.2 }

end Prefetcher

inductive Event where
  | operate (addr : Address)
  | fill (evictedAddr : Address)
deriving DecidableEq, Repr

/-- The prefetcher in a run, with the prefetches that it has asked for. -/
structure Run where
  spp : Prefetcher
  prefetched : List Prefetch

namespace Run

def initial : Run where
  spp := Prefetcher.initial
  prefetched := []

def step (config : SppConfig) (state : Run) : Event → Except Fault Run
  | .operate addr => do
      let (spp, prefetched) ← state.spp.cacheOperate config addr
      .ok { spp := spp, prefetched := state.prefetched ++ prefetched }
  | .fill evictedAddr => .ok { state with spp := state.spp.cacheFill config evictedAddr }

def run (config : SppConfig) (state : Run) (events : List Event) : Except Fault Run :=
  events.foldlM (step config) state

end Run

end ChampSim.Spp

/-
`PageTableWalker`: walks of page tables, which start from a paging-structure
cache or from CR3 and go down one level with each response.

An operation may throw, and each exception is a fault. The order in which
`std::partition` leaves the items is a parameter. The ledger, and the walk that
an entry belongs to, are not in the source: they number the accepted requests
and keep the reads of each, and only the numbers of new walks depend on them.
-/

import ChampSim.Cache.Packet
import ChampSim.Library.Outcome
import ChampSim.Library.Queue
import ChampSim.Msl.LruTable
import ChampSim.Vmem.VirtualMemory
import Mathlib.Data.List.Sort

set_option autoImplicit false

namespace ChampSim.Ptw

open Cache (Request Response Channel Waitable)
open Msl (LruTable)
open Outcome (need)
open Vmem (Paging VirtualMemory)

inductive Fault where
  | invalidArgument
  | rangeError
  | outOfRange
deriving DecidableEq, Repr

structure PsclEntry where
  vaddr : Address := 0
  ptwAddr : Address := 0
  level : Nat := 0
deriving DecidableEq, Repr, Inhabited

/-- A table whose entries are indexed and tagged by the slice from `shamt` upwards. -/
structure Pscl where
  shamt : Nat
  table : LruTable PsclEntry (BitVec 64)

/-- A walk: its number, the level it started at, and the reads that were accepted for it. -/
structure Walk where
  number : Nat
  start : Nat
  reads : List Address
deriving DecidableEq, Repr

structure PtwMshr where
  address : Address
  vAddress : Address
  data : Waitable Address := { value := 0 }
  instrDependOnMe : List Nat
  toReturn : List Nat := []
  pfMetadata : BitVec 32
  cpu : Nat
  asid : BitVec 8 × BitVec 8
  translationLevel : Nat
  walk : Walk
deriving DecidableEq, Repr

def PtwMshr.responses (entry : PtwMshr) : List (Nat × Response) :=
  entry.toReturn.map fun level =>
    (level,
      { address := entry.vAddress
        vAddress := entry.vAddress
        data := entry.data.value
        pfMetadata := entry.pfMetadata
        instrDependOnMe := entry.instrDependOnMe })

/-- `std::partition`: the items that are wanted come first, in any order. -/
structure Partition (Item : Type) where
  split : (Item → Bool) → List Item → List Item × List Item
  perm : ∀ wanted items, ((split wanted items).1 ++ (split wanted items).2).Perm items
  first : ∀ wanted items, ∀ item ∈ (split wanted items).1, wanted item = true
  second : ∀ wanted items, ∀ item ∈ (split wanted items).2, wanted item = false

def Partition.stable (Item : Type) : Partition Item where
  split wanted items := (items.filter wanted, items.filter (fun item => !wanted item))
  perm wanted items := List.filter_append_perm wanted items
  first := fun _wanted _items _item member => (List.mem_filter.mp member).2
  second := fun _wanted _items _item member =>
    (Bool.not_eq_true' _).mp (List.mem_filter.mp member).2

/-- `pscl` lists the level, the sets and the ways of each table of the builder. -/
structure PtwConfig where
  paging : Paging
  log2BlockSize : Nat
  cpu : Nat
  pscl : List (Nat × Nat × Nat)
  sixteen : pscl.length ≤ 16
  clockPeriod : Nat
  hitLatency : Nat
  maxRead : Nat
  maxFill : Nat
  partition : Partition PtwMshr

/-- A request that was accepted, its upper level, and what the tables gave for it. -/
structure Accepted where
  request : Request
  upper : Nat
  hits : List (Option PsclEntry)
deriving DecidableEq, Repr

/-- The requests that were accepted, and the entries whose walks were answered. -/
structure Ledger where
  accepted : List Accepted := []
  answered : List PtwMshr := []
deriving DecidableEq, Repr

structure PageTableWalker (config : PtwConfig) where
  mshr : List PtwMshr := []
  finished : List PtwMshr := []
  completed : List PtwMshr := []
  upperLevels : List Channel
  lowerLevel : Channel
  pscl : List Pscl
  vmem : VirtualMemory config.paging
  cr3Addr : Address
  currentTime : Nat := 0
  warmup : Bool := true
  ledger : Ledger := {}

namespace PtwConfig

variable (config : PtwConfig)

/-- The dimensions of the tables, the highest level first. -/
def localPsclDims : List (Nat × Nat × Nat) :=
  (config.pscl.filter (fun dims => dims.1 ≠ 0)).mergeSort fun left right =>
    decide (right.1 < left.1 ∨ (left.1 = right.1 ∧
      (right.2.1 < left.2.1 ∨ (left.2.1 = right.2.1 ∧ right.2.2 ≤ left.2.2))))

def offset (vaddr : Address) (level : Nat) : Except Fault Nat :=
  need .invalidArgument (config.paging.getOffset vaddr (BitVec.ofNat 64 level))

/-- The first address of a walk: the page of the pointer, at the offset of the address. -/
def walkAddress (ptwAddr : Address) (walkOffset : Nat) : Address :=
  ptwAddr.splice
    (BitVec.ofNat 64 ((walkOffset % 2 ^ (config.paging.log2PageSize - 3)) <<< 3))
    config.paging.log2PageSize

end PtwConfig

namespace Pscl

def make (paging : Paging) (dims : Nat × Nat × Nat) : Option Pscl :=
  let shamt := paging.shamt (BitVec.ofNat 64 dims.1)
  (LruTable.make dims.2.1 dims.2.2 (fun entry => ((entry.vaddr.sliceUpper shamt).toNat : Int))
    (fun entry => entry.vaddr.sliceUpper shamt)).map (fun table => ⟨shamt, table⟩)

def checkHit (pscl : Pscl) (elem : PsclEntry) : Except Fault (Option PsclEntry × Pscl) := do
  if 64 < pscl.shamt then .error .invalidArgument
  else
    let checked ← need .rangeError (pscl.table.checkHit elem)
    return (checked.1, { pscl with table := checked.2 })

def fill (pscl : Pscl) (elem : PsclEntry) : Except Fault Pscl := do
  if 64 < pscl.shamt then .error .invalidArgument
  else
    let table ← need .rangeError (pscl.table.fill elem)
    return { pscl with table }

/-- What each table gives for an entry, and the tables after it. -/
def checkHits (elem : PsclEntry) : List Pscl → Except Fault (List (Option PsclEntry) × List Pscl)
  | [] => .ok ([], [])
  | pscl :: rest => do
      let checked ← pscl.checkHit elem
      let others ← checkHits elem rest
      return (checked.1 :: others.1, checked.2 :: others.2)

end Pscl

namespace PageTableWalker

variable {config : PtwConfig}

/-- A walker as it is constructed: CR3 is the entry of page zero at the highest level. -/
def make (config : PtwConfig) (vmem : VirtualMemory config.paging) (upperLevels : List Channel)
    (lowerLevel : Channel) : Option (PageTableWalker config) := do
  let cr3 ← vmem.getPtePa (BitVec.ofNat 32 config.cpu) 0
    (BitVec.ofNat 64 config.paging.ptLevels)
  let pscl ← config.localPsclDims.mapM (Pscl.make config.paging)
  return { upperLevels, lowerLevel, pscl, vmem := cr3.2, cr3Addr := cr3.1.1 }

variable (walker : PageTableWalker config)

/-- The read of an entry, unless the lower level refuses it. -/
def stepTranslation (source : PtwMshr) : Option (PtwMshr × Channel) :=
  (walker.lowerLevel.addRq
    { address := source.address
      vAddress := source.vAddress
      pfMetadata := source.pfMetadata
      cpu := source.cpu
      asid := source.asid
      isTranslated := true
      type := .translation }).map fun lower =>
    ({ source with
      walk := { source.walk with reads := source.walk.reads ++ [source.address] } }, lower)

/-- Where a walk starts: from the last table that has an entry, or from CR3. -/
def walkInit (packet : Request) (hits : List (Option PsclEntry)) : PsclEntry :=
  hits.foldl (fun init hit => hit.getD init) ⟨packet.vAddress, walker.cr3Addr, walker.pscl.length⟩

def handleRead (upper : Nat) (handlePkt : Request) :
    Except Fault (Option PtwMshr × PageTableWalker config) := do
  let checked ← Pscl.checkHits ⟨handlePkt.vAddress, walker.cr3Addr, walker.pscl.length⟩ walker.pscl
  let init := walker.walkInit handlePkt checked.1
  let walkOffset ← config.offset handlePkt.address init.level
  let fwdMshr : PtwMshr :=
    { address := config.walkAddress init.ptwAddr walkOffset
      vAddress := handlePkt.address
      instrDependOnMe := handlePkt.instrDependOnMe
      toReturn := if handlePkt.responseRequested then [upper] else []
      pfMetadata := handlePkt.pfMetadata
      cpu := handlePkt.cpu
      asid := handlePkt.asid
      translationLevel := init.level
      walk := ⟨walker.ledger.accepted.length, init.level, []⟩ }
  match walker.stepTranslation fwdMshr with
  | none => .ok (none, { walker with pscl := checked.2 })
  | some (source, lowerLevel) =>
      .ok (some source,
        { walker with
          pscl := checked.2
          lowerLevel
          ledger := { walker.ledger with
            accepted := walker.ledger.accepted ++ [⟨handlePkt, upper, checked.1⟩] } })

def handleFill (fillMshr : PtwMshr) : Except Fault (Option PtwMshr × PageTableWalker config) := do
  let psclIdx := (BitVec.ofNat 64 walker.pscl.length -
    BitVec.ofNat 64 fillMshr.translationLevel).toNat
  let pscl ← need .outOfRange walker.pscl[psclIdx]?
  let filled ← pscl.fill ⟨fillMshr.vAddress, fillMshr.data.value, fillMshr.translationLevel⟩
  let next := { walker with pscl := walker.pscl.set psclIdx filled }
  let fwdMshr :=
    { fillMshr with
      address := fillMshr.data.value
      translationLevel := fillMshr.translationLevel - 1 }
  match next.stepTranslation fwdMshr with
  | none => .ok (none, next)
  | some (source, lowerLevel) => .ok (some source, { next with lowerLevel })

def finishEntry (vmem : VirtualMemory config.paging) (entry : PtwMshr) :
    Except Fault (PtwMshr × VirtualMemory config.paging) := do
  let page := config.paging.pageNumber entry.vAddress
  let ready := fun penalty =>
    some (walker.currentTime + penalty + if walker.warmup then 0 else config.hitLatency)
  if entry.translationLevel = 0 then
    let called := vmem.vaToPa (BitVec.ofNat 32 entry.cpu) page
    .ok ({ entry with data := ⟨config.paging.pageAddress called.1.1, ready called.1.2⟩ }, called.2)
  else
    let called ← need .invalidArgument
      (vmem.getPtePa (BitVec.ofNat 32 entry.cpu) page (BitVec.ofNat 64 entry.translationLevel))
    .ok ({ entry with data := ⟨called.1.1, ready called.1.2⟩ }, called.2)

def finishEntries : List PtwMshr → VirtualMemory config.paging →
    Except Fault (List PtwMshr × VirtualMemory config.paging)
  | [], vmem => .ok ([], vmem)
  | entry :: rest, vmem => do
      let finished ← walker.finishEntry vmem entry
      let others ← finishEntries rest finished.2
      return (finished.1 :: others.1, others.2)

/-- `finish_packet`. -/
def finishPacket (packet : Response) : Except Fault (PageTableWalker config) := do
  let matchesAddr := fun (entry : PtwMshr) =>
    entry.address.sliceUpper config.log2BlockSize = packet.address.sliceUpper config.log2BlockSize
  let split := config.partition.split (fun entry => decide (matchesAddr entry)) walker.mshr
  let done ← walker.finishEntries split.1 walker.vmem
  let isLastStep := fun (entry : PtwMshr) => decide (entry.translationLevel = 0)
  .ok
    { walker with
      mshr := split.2
      completed := walker.completed ++ done.1.filter isLastStep
      finished := walker.finished ++ done.1.filter (fun entry => !isLastStep entry)
      vmem := done.2 }

/-- The returned packets of the lower level are finished. -/
def finishPackets : Except Fault (PageTableWalker config) := do
  let finished ← walker.lowerLevel.returned.foldlM
    (fun state packet => finishPacket state packet) walker
  return { finished with lowerLevel := { finished.lowerLevel with returned := [] } }

/-- Entries at the front of `completed` are answered. -/
def answerCompleted : PageTableWalker config :=
  let isReady := fun (entry : PtwMshr) => entry.data.isReadyAt walker.currentTime
  let done := Queue.span config.maxFill isReady walker.completed
  { walker with
    completed := Queue.beyond config.maxFill isReady walker.completed
    upperLevels := (done.flatMap PtwMshr.responses).foldl
      (fun uppers sent => uppers.modify sent.1 (fun channel => channel.pushReturned sent.2))
      walker.upperLevels
    ledger := { walker.ledger with answered := walker.ledger.answered ++ done } }

/-- Items at the front are handled until one is not: what came of them, and the items left. -/
def handleFront {Item : Type}
    (handle : PageTableWalker config → Item →
      Except Fault (Option PtwMshr × PageTableWalker config)) :
    PageTableWalker config → List Item →
      Except Fault (List PtwMshr × List Item × PageTableWalker config)
  | walker, [] => .ok ([], [], walker)
  | walker, item :: rest => do
      let handled ← handle walker item
      match handled.1 with
      | none => return ([], item :: rest, handled.2)
      | some source =>
          let others ← handleFront handle handled.2 rest
          return (source :: others.1, others.2.1, others.2.2)

/-- Entries at the front of `finished` go down one level. -/
def fillFinished (bandwidth : Nat) : Except Fault (List PtwMshr × PageTableWalker config) := do
  let isReady := fun (entry : PtwMshr) => entry.data.isReadyAt walker.currentTime
  let handled ← handleFront handleFill walker (Queue.span bandwidth isReady walker.finished)
  return (handled.1,
    { handled.2.2 with
      finished := handled.2.1 ++ Queue.beyond bandwidth isReady walker.finished })

/-- Requests at the front of the queues of the upper levels start walks: also the channels after
it. -/
def readUppers : Nat → List Channel → Nat → PageTableWalker config →
    Except Fault (List PtwMshr × List Channel × PageTableWalker config)
  | _upper, [], _bandwidth, walker => .ok ([], [], walker)
  | upper, channel :: rest, bandwidth, walker => do
      let handled ← handleFront (fun state => state.handleRead upper) walker
        (channel.rq.take bandwidth)
      let others ← readUppers (upper + 1) rest (bandwidth - handled.1.length) handled.2.2
      return (handled.1 ++ others.1,
        { channel with rq := handled.2.1 ++ channel.rq.drop bandwidth } :: others.2.1, others.2.2)

/-- `operate`, after the time has advanced. -/
def operate : Except Fault (PageTableWalker config) := do
  let begun := { walker with currentTime := walker.currentTime + config.clockPeriod }
  let finished ← begun.finishPackets
  let answered := finished.answerCompleted
  let fillBandwidth := config.maxFill - (finished.completed.length - answered.completed.length)
  let filled ← answered.fillFinished fillBandwidth
  let read ← readUppers 0 filled.2.upperLevels config.maxRead filled.2
  return { read.2.2 with
    upperLevels := read.2.1
    mshr := read.2.2.mshr ++ filled.1 ++ read.1 }

end PageTableWalker

end ChampSim.Ptw

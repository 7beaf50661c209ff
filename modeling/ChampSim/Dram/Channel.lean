/-
`DRAM_CHANNEL`: the two queues of a channel, the requests that its banks work
on, and one cycle of their operation.

An operation may read an empty optional, leave the range of a vector, or wait
for a mapping that returns no bank; each ends it with a fault. A pointer to a
`returned` queue is the number of the upper level, and an operation lists the
responses that it pushes. Progress counts and statistics are left out.
-/

import ChampSim.Cache.Packet
import ChampSim.Dram.AddressMapping
import ChampSim.Library.Scan

set_option autoImplicit false

namespace ChampSim.Dram

open Cache (Request Response setUnion)
open Outcome (need)

inductive Fault where
  | emptyOptional
  | outOfRange
  | noBank
deriving DecidableEq, Repr

/-- `readyTime = none` is `time_point::max()`. -/
structure DramRequest where
  scheduled : Bool := false
  forwardChecked : Bool := false
  asid : BitVec 8 × BitVec 8 := (255, 255)
  pfMetadata : BitVec 32 := 0
  address : Address := 0
  vAddress : Address := 0
  data : Address := 0
  readyTime : Option Nat := none
  instrDependOnMe : List Nat := []
  toReturn : List Nat := []
deriving DecidableEq, Repr

namespace DramRequest

/-- `request_type{req}`: both addresses are that of the request. -/
def ofRequest (request : Request) : DramRequest :=
  { asid := request.asid
    pfMetadata := request.pfMetadata
    address := request.address
    vAddress := request.address
    data := request.data
    instrDependOnMe := request.instrDependOnMe }

def response (entry : DramRequest) (data : Address) : Response :=
  { address := entry.address
    vAddress := entry.vAddress
    data
    pfMetadata := entry.pfMetadata
    instrDependOnMe := entry.instrDependOnMe }

/-- The response on the `returned` queue of everyone who waits for it. -/
def pushes (entry : DramRequest) (data : Address) : List (Nat × Response) :=
  entry.toReturn.map (fun level => (level, entry.response data))

/-- What a read takes over from another read of the same block. -/
def merge (source found : DramRequest) : DramRequest :=
  { found with
    instrDependOnMe := setUnion found.instrDependOnMe source.instrDependOnMe
    toReturn := setUnion found.toReturn source.toReturn }

def readyAt (entry : DramRequest) (time : Nat) : Bool :=
  match entry.readyTime with
  | some ready => decide (ready ≤ time)
  | none => false

/-- `lhs.ready_time <= rhs.ready_time`. -/
def readyBefore (lhs rhs : DramRequest) : Bool :=
  match lhs.readyTime, rhs.readyTime with
  | _, none => true
  | none, some _ => false
  | some left, some right => decide (left ≤ right)

end DramRequest

abbrev RequestQueue := List (Option DramRequest)

inductive Side where
  | wq
  | rq
deriving DecidableEq, Repr

/-- `pkt = none` is an iterator that was never set. -/
structure BankRequest where
  valid : Bool := false
  rowBufferHit : Bool := false
  needRefresh : Bool := false
  underRefresh : Bool := false
  openRow : Option Nat := none
  readyTime : Nat := 0
  pkt : Option (Side × Nat) := none
deriving DecidableEq, Repr

structure DramConfig where
  addressMapping : AddressMapping
  clockPeriod : Nat
  tRP : Nat
  tRCD : Nat
  tCAS : Nat
  tREF : Nat
  tRFC : Nat
  dbusTurnAroundTime : Nat
  dbusReturnTime : Nat
  dbusBankgroupStall : Nat
  rowsPerRefresh : Nat
deriving DecidableEq, Repr

/-- `activeRequest = none` is `end()`. -/
structure DramChannel where
  wq : RequestQueue
  rq : RequestQueue
  bankRequest : List BankRequest
  activeRequest : Option Nat := none
  bankgroupReadytime : List Nat
  writeMode : Bool := false
  dbusCycleAvailable : Nat := 0
  refreshRow : Nat := 0
  lastRefresh : Nat := 0
  currentTime : Nat := 0
  warmup : Bool := true
deriving DecidableEq, Repr

/-! ### The mapping of a request -/

namespace AddressMapping

variable (mapping : AddressMapping)

/-- The value that an accessor returns, with fuel for every row bit. -/
def settled (accessor : Nat → Option (Except SliceError Nat)) : Option Nat :=
  match accessor (mapping.addressSlicer.row.upper + 1) with
  | some (.ok value) => some value
  | _ => none

def bankgroupRequestIndex (address : Address) : Option Nat :=
  match mapping.getRank address, mapping.settled (fun fuel => mapping.getBankgroup fuel address) with
  | .ok opRank, some opBankgroup => some (opRank * mapping.bankgroups + opBankgroup)
  | _, _ => none

def bankRequestIndex (address : Address) : Option Nat :=
  match mapping.settled (fun fuel => mapping.getBank fuel address),
      mapping.bankgroupRequestIndex address with
  | some opBank, some bankgroup => some (bankgroup * mapping.banks + opBank)
  | _, _ => none

/-- `checker`: an occupied entry of the block of an address. -/
def checker (address : Address) (entry : Option DramRequest) : Bool :=
  match entry with
  | some packet => mapping.isCollision packet.address address
  | none => false

/-- The first other entry of the block of an address, below the index and then above it. -/
def findOther (queue : RequestQueue) (index : Nat) (address : Address) : Option Nat :=
  match Scan.findIf (mapping.checker address) (queue.take index) with
  | some found => some found.index
  | none =>
      (Scan.findIf (mapping.checker address) (queue.drop (index + 1))).map
        (fun found => index + 1 + found.index)

end AddressMapping

def entryAt (queue : RequestQueue) (index : Nat) : Option DramRequest := queue[index]?.join

namespace DramChannel

def make (mapping : AddressMapping) (rqSize wqSize : Nat) : DramChannel where
  wq := List.replicate wqSize none
  rq := List.replicate rqSize none
  bankRequest := List.replicate (mapping.ranks * mapping.banks * mapping.bankgroups) {}
  bankgroupReadytime := List.replicate (mapping.ranks * mapping.bankgroups) 0

def queue (channel : DramChannel) : Side → RequestQueue
  | .wq => channel.wq
  | .rq => channel.rq

def setQueue (channel : DramChannel) (side : Side) (queue : RequestQueue) : DramChannel :=
  match side with
  | .wq => { channel with wq := queue }
  | .rq => { channel with rq := queue }

def packetAt (channel : DramChannel) (place : Side × Nat) : Option DramRequest :=
  entryAt (channel.queue place.1) place.2

/-- `*pkt = entry`. -/
def store (channel : DramChannel) (place : Side × Nat) (entry : Option DramRequest) :
    DramChannel :=
  channel.setQueue place.1 ((channel.queue place.1).set place.2 entry)

/-! ### Joining -/

def addTo (queue : RequestQueue) (entry : DramRequest) : Option RequestQueue :=
  (Scan.findIf (fun other => other.isNone) queue).map
    (fun empty => queue.set empty.index (some entry))

/-- `MEMORY_CONTROLLER::add_rq`, when the packet is for this channel. -/
def addRq (channel : DramChannel) (packet : Request) (level currentTime : Nat) :
    Option DramChannel :=
  (addTo channel.rq
    { DramRequest.ofRequest packet with
      forwardChecked := false
      scheduled := false
      readyTime := some currentTime
      toReturn := if packet.responseRequested then [level] else [] }).map
    (fun rq => { channel with rq })

/-- `MEMORY_CONTROLLER::add_wq`, when the packet is for this channel. -/
def addWq (channel : DramChannel) (packet : Request) (currentTime : Nat) : Option DramChannel :=
  (addTo channel.wq
    { DramRequest.ofRequest packet with
      forwardChecked := false
      scheduled := false
      readyTime := some currentTime }).map
    (fun wq => { channel with wq })

/-! ### Collisions -/

def checkWrite (mapping : AddressMapping) (wq : RequestQueue) (index : Nat) : RequestQueue :=
  match entryAt wq index with
  | none => wq
  | some entry =>
      if entry.forwardChecked then wq
      else
        match mapping.findOther wq index entry.address with
        | some _ => wq.set index none
        | none => wq.set index (some { entry with forwardChecked := true })

def checkWriteCollision (mapping : AddressMapping) (channel : DramChannel) : DramChannel :=
  { channel with wq := (List.range channel.wq.length).foldl (checkWrite mapping) channel.wq }

/-- The read queue and the pushes so far, after one entry was looked at. -/
def checkRead (mapping : AddressMapping) (wq : RequestQueue)
    (state : RequestQueue × List (Nat × Response)) (index : Nat) :
    RequestQueue × List (Nat × Response) :=
  match entryAt state.1 index with
  | none => state
  | some entry =>
      if entry.forwardChecked then state
      else
        match (Scan.findIf (mapping.checker entry.address) wq).bind (fun found => found.item) with
        | some write => (state.1.set index none, state.2 ++ entry.pushes write.data)
        | none =>
            match mapping.findOther state.1 index entry.address with
            | some found =>
                ((state.1.modify found (Option.map entry.merge)).set index none, state.2)
            | none => (state.1.set index (some { entry with forwardChecked := true }), state.2)

def checkReadCollision (mapping : AddressMapping) (channel : DramChannel) :
    DramChannel × List (Nat × Response) :=
  let checked := (List.range channel.rq.length).foldl (checkRead mapping channel.wq)
    (channel.rq, [])
  ({ channel with rq := checked.1 }, checked.2)

/-! ### The banks and the data bus -/

def flush (channel : DramChannel) : DramChannel × List (Nat × Response) :=
  let responses := channel.rq.flatMap fun slot =>
    match slot with
    | some entry => entry.pushes entry.data
    | none => []
  ({ channel with
      rq := channel.rq.map (fun _ => none)
      wq := channel.wq.map (fun _ => none) }, responses)

def finishDbusRequest (channel : DramChannel) :
    Except Fault (DramChannel × List (Nat × Response)) :=
  match channel.activeRequest with
  | none => .ok (channel, [])
  | some index => do
      let active ← need .outOfRange channel.bankRequest[index]?
      if active.readyTime ≤ channel.currentTime then
        let place ← need .outOfRange active.pkt
        let entry ← need .emptyOptional (channel.packetAt place)
        return (
          { channel.store place none with
            bankRequest := channel.bankRequest.set index { active with valid := false }
            activeRequest := none },
          entry.pushes entry.data)
      else return (channel, [])

variable (config : DramConfig)

/-- The request of a bank is cancelled, unless it is on the data bus. -/
def cancel (channel : DramChannel) (index : Nat) : Except Fault DramChannel := do
  let slot ← need .outOfRange channel.bankRequest[index]?
  if channel.activeRequest ≠ some index ∧ slot.valid then
    let place ← need .outOfRange slot.pkt
    let entry ← need .emptyOptional (channel.packetAt place)
    .ok
      { channel.store place
          (some { entry with scheduled := false, readyTime := some channel.currentTime }) with
        bankRequest := channel.bankRequest.set index
          { slot with
            openRow := if slot.readyTime < channel.currentTime + config.tCAS then none
              else slot.openRow
            valid := false } }
  else return channel

/-- When the data bus is free after the request that is on it. -/
def busFree (channel : DramChannel) : Except Fault Nat :=
  match channel.activeRequest with
  | some index => do
      let active ← need .outOfRange channel.bankRequest[index]?
      return active.readyTime
  | none => .ok channel.currentTime

def swapWriteMode (channel : DramChannel) : Except Fault DramChannel :=
  let highWm := (channel.wq.length * 7) >>> 3
  let lowWm := (channel.wq.length * 6) >>> 3
  let wqOccu := channel.wq.countP Option.isSome
  let rqOccu := channel.rq.countP Option.isSome
  if (!channel.writeMode ∧ (highWm ≤ wqOccu ∨ (rqOccu = 0 ∧ 0 < wqOccu))) ∨
      (channel.writeMode ∧ (wqOccu = 0 ∨ (0 < rqOccu ∧ wqOccu < lowWm))) then do
    let cancelled ← (List.range channel.bankRequest.length).foldlM (cancel config) channel
    let free ← cancelled.busFree
    .ok
      { cancelled with
        dbusCycleAvailable := free + config.dbusTurnAroundTime
        writeMode := !cancelled.writeMode }
  else .ok channel

def refreshBank (now : Nat) (refresh : Bool) (slot : BankRequest) : BankRequest :=
  let slot := if refresh then { slot with needRefresh := true } else slot
  if slot.needRefresh && !slot.valid then
    { slot with readyTime := now + config.tRFC, needRefresh := false, underRefresh := true }
  else if slot.underRefresh && decide (slot.readyTime ≤ now) then
    { slot with underRefresh := false, openRow := none }
  else slot

def scheduleRefresh (channel : DramChannel) : DramChannel :=
  let refresh := decide (channel.lastRefresh + config.tREF ≤ channel.currentTime)
  let refreshRow := channel.refreshRow + config.rowsPerRefresh
  let banks := channel.bankRequest.map (refreshBank config channel.currentTime refresh)
  if refresh then
    { channel with
      lastRefresh := channel.currentTime
      refreshRow :=
        if config.addressMapping.rows ≤ refreshRow then
          refreshRow - config.addressMapping.rows
        else refreshRow
      bankRequest := banks }
  else { channel with bankRequest := banks }

def nextProcess (lhs rhs : BankRequest) : Except Fault Bool :=
  .ok (!rhs.valid || (lhs.valid && decide (lhs.readyTime < rhs.readyTime)))

def populateDbus (channel : DramChannel) : Except Fault DramChannel := do
  let found ← Scan.minElement nextProcess channel.bankRequest
  let next ← need .outOfRange found
  if next.item.valid && decide (next.item.readyTime ≤ channel.currentTime) &&
      channel.activeRequest.isNone &&
      decide (channel.dbusCycleAvailable ≤ channel.currentTime) then
    let place ← need .outOfRange next.item.pkt
    let entry ← need .emptyOptional (channel.packetAt place)
    let opBankgroup ← need .noBank (config.addressMapping.bankgroupRequestIndex entry.address)
    let bankgroupReady ← need .outOfRange channel.bankgroupReadytime[opBankgroup]?
    .ok
      { channel with
        activeRequest := some next.index
        bankRequest := channel.bankRequest.set next.index
          { next.item with
            readyTime :=
              if channel.currentTime < bankgroupReady then bankgroupReady + config.dbusReturnTime
              else channel.currentTime + config.dbusReturnTime }
        bankgroupReadytime := channel.bankgroupReadytime.set opBankgroup
          (channel.currentTime + config.dbusReturnTime + config.dbusBankgroupStall) }
  else return channel

def bankBusy (channel : DramChannel) (address : Address) : Except Fault Bool := do
  let index ← need .noBank (config.addressMapping.bankRequestIndex address)
  let slot ← need .outOfRange channel.bankRequest[index]?
  return slot.valid

def nextSchedule (channel : DramChannel) (lhs rhs : Option DramRequest) : Except Fault Bool :=
  match rhs with
  | none => .ok true
  | some right =>
      if right.scheduled then .ok true
      else
        match lhs with
        | none => .ok false
        | some left =>
            if left.scheduled then .ok false
            else do
              let leftBusy ← bankBusy config channel left.address
              let rightBusy ← bankBusy config channel right.address
              return if rightBusy == leftBusy then left.readyBefore right else !leftBusy

def schedulePacket (channel : DramChannel) : Except Fault (Option (Side × Nat)) := do
  let side := if channel.writeMode then Side.wq else .rq
  let found ← Scan.minElement (nextSchedule config channel) (channel.queue side)
  return found.map (fun next => (side, next.index))

/-- The end of a queue without entries points to no packet. -/
def servicePacket (channel : DramChannel) (pkt : Option (Side × Nat)) : Except Fault DramChannel :=
  match pkt.bind (fun place => (channel.packetAt place).map (fun entry => (place, entry))) with
  | none => .ok channel
  | some (place, entry) =>
      if entry.readyAt channel.currentTime then do
        let opRow ← need .noBank (config.addressMapping.getRow entry.address).toOption
        let opIdx ← need .noBank (config.addressMapping.bankRequestIndex entry.address)
        let slot ← need .outOfRange channel.bankRequest[opIdx]?
        if !slot.valid && !slot.underRefresh then
          let rowBufferHit := decide (slot.openRow = some opRow)
          let rowChargeDelay :=
            if slot.openRow.isSome then config.tRP + config.tRCD else config.tRCD
          .ok
            { channel.store place (some { entry with scheduled := true, readyTime := none }) with
              bankRequest := channel.bankRequest.set opIdx
                { valid := true
                  rowBufferHit
                  needRefresh := false
                  underRefresh := false
                  openRow := some opRow
                  readyTime := channel.currentTime + config.tCAS +
                    (if rowBufferHit then 0 else rowChargeDelay)
                  pkt := some place } }
        else return channel
      else .ok channel

/-- `_operate`. -/
def operate (channel : DramChannel) : Except Fault (DramChannel × List (Nat × Response)) := do
  let begun := { channel with currentTime := channel.currentTime + config.clockPeriod }
  let flushed := if begun.warmup then begun.flush else (begun, [])
  let written := checkWriteCollision config.addressMapping flushed.1
  let read := checkReadCollision config.addressMapping written
  let finished ← finishDbusRequest read.1
  let swapped ← swapWriteMode config finished.1
  let populated ← populateDbus config (scheduleRefresh config swapped)
  let pkt ← schedulePacket config populated
  let serviced ← servicePacket config populated pkt
  return (serviced, flushed.2 ++ read.2 ++ finished.2)

end DramChannel

end ChampSim.Dram

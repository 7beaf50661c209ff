/-
`MEMORY_CONTROLLER`: the channels of a memory, and the queues of the upper
levels that their requests come from.

The ledger is not in the source: it lists the reads that were accepted, each
with the responses that were pushed on the `returned` queue of its level since.
-/

import ChampSim.Dram.Channel
import ChampSim.Library.Transition

set_option autoImplicit false

namespace ChampSim.Dram

open Cache (Request Response)
open Outcome (need)
open Transition (Machine)

/-- A read that was accepted from an upper level, and what was pushed there since. -/
structure AcceptedRead where
  level : Nat
  request : Request
  pushed : List Response := []
deriving DecidableEq, Repr

def AcceptedRead.note (read : AcceptedRead) (sent : Nat × Response) : AcceptedRead :=
  if sent.1 = read.level then { read with pushed := read.pushed ++ [sent.2] } else read

structure MemoryController where
  queues : List Cache.Channel
  channels : List DramChannel
  currentTime : Nat := 0
  ledger : List AcceptedRead := []
deriving DecidableEq, Repr

namespace MemoryController

def make (mapping : AddressMapping) (queues : List Cache.Channel) (rqSize wqSize : Nat) :
    MemoryController where
  queues
  channels := List.replicate mapping.channels (DramChannel.make mapping rqSize wqSize)

variable (config : DramConfig) (controller : MemoryController)

/-- `address_mapping.get_channel(packet.address)`. -/
def channelIndex (address : Address) : Except Fault Nat :=
  need .noBank (config.addressMapping.settled
    (fun fuel => config.addressMapping.getChannel fuel address))

/-- `none` when the read queue of the channel is full. -/
def addRq (packet : Request) (level : Nat) : Except Fault (Option MemoryController) := do
  let index ← channelIndex config packet.address
  let channel ← need .outOfRange controller.channels[index]?
  return (channel.addRq packet level controller.currentTime).map (fun joined =>
    { controller with
      channels := controller.channels.set index joined
      ledger := controller.ledger ++ [{ level, request := packet }] })

/-- `none` when the write queue of the channel is full. -/
def addWq (packet : Request) : Except Fault (Option MemoryController) := do
  let index ← channelIndex config packet.address
  let channel ← need .outOfRange controller.channels[index]?
  return (channel.addWq packet controller.currentTime).map (fun joined =>
    { controller with channels := controller.channels.set index joined })

/-- Packets are added from the front until one is refused: also the packets that are left. -/
def addSpan (add : MemoryController → Request → Except Fault (Option MemoryController)) :
    MemoryController → List Request → Except Fault (List Request × MemoryController)
  | controller, [] => .ok ([], controller)
  | controller, packet :: rest => do
      match ← add controller packet with
      | none => return (packet :: rest, controller)
      | some joined => addSpan add joined rest

def initiateLevel (level : Nat) (queue : Cache.Channel) :
    Except Fault (Cache.Channel × MemoryController) := do
  let reads ← addSpan (fun state packet => state.addRq config packet level) controller queue.rq
  let prefetches ← addSpan (fun state packet => state.addRq config packet level) reads.2 queue.pq
  let writes ← addSpan (fun state packet => state.addWq config packet) prefetches.2 queue.wq
  return ({ queue with rq := reads.1, pq := prefetches.1, wq := writes.1 }, writes.2)

def initiateLevels :
    Nat → List Cache.Channel → MemoryController →
      Except Fault (List Cache.Channel × MemoryController)
  | _level, [], controller => .ok ([], controller)
  | level, queue :: rest, controller => do
      let initiated ← initiateLevel config controller level queue
      let others ← initiateLevels (level + 1) rest initiated.2
      return (initiated.1 :: others.1, others.2)

/-- `initiate_requests`. -/
def initiateRequests : Except Fault MemoryController := do
  let initiated ← initiateLevels config 0 controller.queues controller
  return { initiated.2 with queues := initiated.1 }

/-- Each channel operates: the channels after it, and what they push. -/
def operateChannels : List DramChannel → Except Fault (List DramChannel × List (Nat × Response))
  | [] => .ok ([], [])
  | channel :: rest => do
      let operated ← channel.operate config
      let others ← operateChannels rest
      return (operated.1 :: others.1, operated.2 ++ others.2)

/-- `ret->push_back(response)`. -/
def push (sent : Nat × Response) : MemoryController :=
  { controller with
    queues := controller.queues.modify sent.1 (fun queue => queue.pushReturned sent.2)
    ledger := controller.ledger.map (fun read => read.note sent) }

/-- `_operate`. -/
def operate : Except Fault MemoryController := do
  let initiated ← initiateRequests config
    { controller with currentTime := controller.currentTime + config.clockPeriod }
  let operated ← operateChannels config initiated.channels
  return operated.2.foldl push { initiated with channels := operated.1 }

/-- `begin_phase`. -/
def beginPhase (warmup : Bool) : MemoryController :=
  { controller with channels := controller.channels.map (fun channel => { channel with warmup }) }

end MemoryController

/-- Between the operations the upper levels use their queues as they like. -/
inductive ControllerStep where
  | operate
  | queues (queues : List Cache.Channel)
  | beginPhase (warmup : Bool)
deriving DecidableEq, Repr

def MemoryController.machine (config : DramConfig) : Machine MemoryController ControllerStep where
  step controller
    | .operate => (controller.operate config).toOption
    | .queues queues =>
        if queues.length = controller.queues.length then some { controller with queues } else none
    | .beginPhase warmup => some (controller.beginPhase warmup)

end ChampSim.Dram

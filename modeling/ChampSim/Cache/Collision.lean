/-
`channel::check_collision`: the requests that have joined the queues of a
channel since the last check are answered from the write queue, or merged into
an older request of their own queue.
-/

import ChampSim.Cache.Packet

set_option autoImplicit false

namespace ChampSim.Cache

namespace Channel

/-- The position of the request that `do_collision_for` finds for a packet. The
two collide when both or neither of them are translated. -/
def collisionIndex (queue : List Request) (packet : Request) (shamt : Nat) : Option Nat :=
  let found := queue.findIdx
    (fun other => decide (other.address.sliceUpper shamt = packet.address.sliceUpper shamt))
  match queue[found]? with
  | some other => if packet.isTranslated = other.isTranslated then some found else none
  | none => none

def mergeRequest (source destination : Request) : Request :=
  { destination with
    responseRequested := destination.responseRequested || source.responseRequested
    instrDependOnMe := setUnion destination.instrDependOnMe source.instrDependOnMe }

/-- The queue before the packet with the packet merged into it, or `none`. -/
def doCollisionForMerge (queue : List Request) (packet : Request) (shamt : Nat) :
    Option (List Request) :=
  (collisionIndex queue packet shamt).map (fun index => queue.modify index (mergeRequest packet))

/-- The responses that the write queue answers the packet with, or `none`. -/
def doCollisionForReturn (wq : List Request) (packet : Request) (shamt : Nat) :
    Option (List Response) :=
  (collisionIndex wq packet shamt).bind fun index => wq[index]?.map fun destination =>
    if packet.responseRequested then
      [{ address := packet.address
         vAddress := packet.vAddress
         data := destination.data
         pfMetadata := destination.pfMetadata
         instrDependOnMe := packet.instrDependOnMe }]
    else []

/-- The loop over `WQ` from the first request that is not yet checked. -/
def checkWq (shamt : Nat) (checked : List Request) : List Request → List Request
  | [] => checked
  | packet :: rest =>
      match doCollisionForMerge checked packet shamt with
      | some merged => checkWq shamt merged rest
      | none => checkWq shamt (checked ++ [{ packet with forwardChecked := true }]) rest

/-- The loop over `RQ` or `PQ`, and the responses that it pushes. -/
def checkReads (wq : List Request) (writeShamt readShamt : Nat) (checked : List Request) :
    List Request → List Request × List Response
  | [] => (checked, [])
  | packet :: rest =>
      match doCollisionForReturn wq packet writeShamt with
      | some answers =>
          let others := checkReads wq writeShamt readShamt checked rest
          (others.1, answers ++ others.2)
      | none =>
          match doCollisionForMerge checked packet readShamt with
          | some merged => checkReads wq writeShamt readShamt merged rest
          | none =>
              checkReads wq writeShamt readShamt
                (checked ++ [{ packet with forwardChecked := true }]) rest

def uncheckedFrom (queue : List Request) : List Request :=
  queue.dropWhile (fun request => request.forwardChecked)

def checkedUpTo (queue : List Request) : List Request :=
  queue.takeWhile (fun request => request.forwardChecked)

def checkCollision (offsetBits : Nat) (matchOffsetBits : Bool) (channel : Channel) : Channel :=
  let writeShamt := if matchOffsetBits then 0 else offsetBits
  let wq := checkWq writeShamt (checkedUpTo channel.wq) (uncheckedFrom channel.wq)
  let reads := checkReads wq writeShamt offsetBits (checkedUpTo channel.rq)
    (uncheckedFrom channel.rq)
  let prefetches := checkReads wq writeShamt offsetBits (checkedUpTo channel.pq)
    (uncheckedFrom channel.pq)
  { channel with
    wq
    rq := reads.1
    pq := prefetches.1
    returned := channel.returned ++ reads.2 ++ prefetches.2 }

end Channel

end ChampSim.Cache

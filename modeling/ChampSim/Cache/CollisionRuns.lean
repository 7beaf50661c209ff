/-
Runs of a channel: requests join its queues and leave them at the front, and
from time to time it checks for collisions.

The requests that are not yet checked are always the last ones of their queue.
Each of them is compared once, with the write queue and with the older requests
of its own queue, and then never again.
-/

import ChampSim.Cache.CollisionFates
import Mathlib.Data.List.TakeWhile

set_option autoImplicit false

namespace ChampSim.Cache

/-- A call of the channel's interface, or a removal at the front of a queue. -/
inductive ChannelCall where
  | addRq (packet : Request)
  | addPq (packet : Request)
  | addWq (packet : Request)
  | checkCollision
  | popRq
  | popPq
  | popWq
deriving DecidableEq, Repr

namespace Channel

/-- A refused request leaves the channel as it was. -/
def call (offsetBits : Nat) (matchOffsetBits : Bool) (channel : Channel) : ChannelCall → Channel
  | .addRq packet => (channel.addRq packet).getD channel
  | .addPq packet => (channel.addPq packet).getD channel
  | .addWq packet => (channel.addWq packet).getD channel
  | .checkCollision => checkCollision offsetBits matchOffsetBits channel
  | .popRq => { channel with rq := channel.rq.tail }
  | .popPq => { channel with pq := channel.pq.tail }
  | .popWq => { channel with wq := channel.wq.tail }

def runCalls (offsetBits : Nat) (matchOffsetBits : Bool) (channel : Channel)
    (calls : List ChannelCall) : Channel :=
  calls.foldl (call offsetBits matchOffsetBits) channel

inductive QueueStep (check : List Request → List Request) : List Request → List Request → Prop where
  | same (queue : List Request) : QueueStep check queue queue
  | join (queue : List Request) (packet : Request) :
      QueueStep check queue (queue ++ [{ packet with forwardChecked := false }])
  | leave (queue : List Request) : QueueStep check queue queue.tail
  | check (queue : List Request) : QueueStep check queue (check queue)

theorem doAddQueue_step (check : List Request → List Request) (queue : List Request) (size : Nat)
    (packet : Request) : QueueStep check queue ((doAddQueue queue size packet).getD queue) := by
  unfold doAddQueue
  split
  · exact .same queue
  · exact .join queue packet

def settleWq (offsetBits : Nat) (matchOffsetBits : Bool) (queue : List Request) : List Request :=
  checkWq (if matchOffsetBits then 0 else offsetBits) (checkedUpTo queue) (uncheckedFrom queue)

/-- How it settles a queue of reads, next to the settled write queue. -/
def settleReads (offsetBits : Nat) (matchOffsetBits : Bool) (wq queue : List Request) :
    List Request :=
  (checkReads wq (if matchOffsetBits then 0 else offsetBits) offsetBits (checkedUpTo queue)
    (uncheckedFrom queue)).1

inductive QueueKind where
  | rq
  | pq
  | wq
deriving DecidableEq, Repr

def QueueKind.of (channel : Channel) : QueueKind → List Request
  | .rq => channel.rq
  | .pq => channel.pq
  | .wq => channel.wq

/-- How a check settles a queue, next to the settled write queue. -/
def QueueKind.settle (offsetBits : Nat) (matchOffsetBits : Bool) (wq : List Request) :
    QueueKind → List Request → List Request
  | .rq => settleReads offsetBits matchOffsetBits wq
  | .pq => settleReads offsetBits matchOffsetBits wq
  | .wq => settleWq offsetBits matchOffsetBits

section Calls

variable (channel : Channel) (packet : Request)

theorem addRq_getD : (channel.addRq packet).getD channel =
    { channel with rq := (doAddQueue channel.rq channel.rqSize packet).getD channel.rq } := by
  unfold addRq
  cases doAddQueue channel.rq channel.rqSize packet <;> rfl

theorem addPq_getD : (channel.addPq packet).getD channel =
    { channel with pq := (doAddQueue channel.pq channel.pqSize packet).getD channel.pq } := by
  unfold addPq
  cases doAddQueue channel.pq channel.pqSize packet <;> rfl

theorem addWq_getD : (channel.addWq packet).getD channel =
    { channel with wq := (doAddQueue channel.wq channel.wqSize packet).getD channel.wq } := by
  unfold addWq
  cases doAddQueue channel.wq channel.wqSize packet <;> rfl

theorem checkCollision_queue (offsetBits : Nat) (matchOffsetBits : Bool) (kind : QueueKind) :
    kind.of (checkCollision offsetBits matchOffsetBits channel) =
      kind.settle offsetBits matchOffsetBits
        (checkCollision offsetBits matchOffsetBits channel).wq (kind.of channel) := by
  cases kind <;> rfl

theorem call_queue (offsetBits : Nat) (matchOffsetBits : Bool) (kind : QueueKind)
    (next : ChannelCall) (check : List Request → List Request)
    (checks : next = .checkCollision →
      kind.of (checkCollision offsetBits matchOffsetBits channel) = check (kind.of channel)) :
    QueueStep check (kind.of channel)
      (kind.of (call offsetBits matchOffsetBits channel next)) := by
  cases next with
  | addRq packet =>
      simp only [call, addRq_getD]
      cases kind with
      | rq => exact doAddQueue_step _ _ _ packet
      | pq => exact .same _
      | wq => exact .same _
  | addPq packet =>
      simp only [call, addPq_getD]
      cases kind with
      | rq => exact .same _
      | pq => exact doAddQueue_step _ _ _ packet
      | wq => exact .same _
  | addWq packet =>
      simp only [call, addWq_getD]
      cases kind with
      | rq => exact .same _
      | pq => exact .same _
      | wq => exact doAddQueue_step _ _ _ packet
  | checkCollision =>
      have checked := checks rfl
      change QueueStep check _ (kind.of (checkCollision offsetBits matchOffsetBits channel))
      rw [checked]
      exact .check _
  | popRq =>
      cases kind with
      | rq => exact .leave _
      | pq => exact .same _
      | wq => exact .same _
  | popPq =>
      cases kind with
      | rq => exact .same _
      | pq => exact .leave _
      | wq => exact .same _
  | popWq =>
      cases kind with
      | rq => exact .same _
      | pq => exact .same _
      | wq => exact .leave _

end Calls

/-! ### The requests that are not yet checked -/

/-- The unchecked requests are the last ones of the queue. -/
def UncheckedLast (queue : List Request) : Prop :=
  ∀ packet ∈ uncheckedFrom queue, packet.forwardChecked = false

theorem uncheckedLast_of_checked (queue : List Request)
    (all : ∀ packet ∈ queue, packet.forwardChecked = true) : UncheckedLast queue := by
  intro packet member
  unfold uncheckedFrom at member
  rw [List.dropWhile_eq_nil_iff.mpr all] at member
  cases member

theorem Accounted.checked {accounts : List (Request × Fate)} {after : List Request}
    {answers : List Response} (accounted : Accounted accounts after answers) :
    ∀ packet ∈ after, packet.forwardChecked = true := by
  intro packet member
  obtain ⟨place, within, here⟩ := List.getElem_of_mem member
  have placed := List.getElem?_eq_getElem (within.trans_eq accounted.count)
  have survives := accounted.survives place _ packet placed
    (List.getElem?_eq_some_iff.mpr ⟨within, here⟩)
  rw [survives.same]

theorem settle_checked (offsetBits : Nat) (matchOffsetBits : Bool) (wq : List Request)
    (kind : QueueKind) (queue : List Request) :
    ∀ packet ∈ kind.settle offsetBits matchOffsetBits wq queue,
      packet.forwardChecked = true := by
  have start := Accounted.start _ (checkedUpTo_checked queue)
  have reads : ∀ packet ∈ settleReads offsetBits matchOffsetBits wq queue,
      packet.forwardChecked = true := by
    obtain ⟨more, _same, accounted⟩ := checkReads_accounted wq
      (if matchOffsetBits then 0 else offsetBits) offsetBits (uncheckedFrom queue) _ _ _ start
    exact accounted.checked
  cases kind with
  | rq => exact reads
  | pq => exact reads
  | wq =>
      obtain ⟨more, _same, _merges, accounted⟩ := checkWq_accounted
        (if matchOffsetBits then 0 else offsetBits) (uncheckedFrom queue) _ _ start
      exact accounted.checked

theorem uncheckedFrom_join (queue : List Request) (packet : Request) :
    uncheckedFrom (queue ++ [packet]) =
      if uncheckedFrom queue = [] then uncheckedFrom [packet]
      else uncheckedFrom queue ++ [packet] := by
  unfold uncheckedFrom
  rw [List.dropWhile_append]
  cases List.dropWhile (fun request : Request => request.forwardChecked) queue <;> rfl

theorem QueueStep.uncheckedLast {check : List Request → List Request} {queue next : List Request}
    (step : QueueStep check queue next)
    (checks : ∀ packet ∈ check queue, packet.forwardChecked = true)
    (last : UncheckedLast queue) : UncheckedLast next := by
  cases step with
  | same => exact last
  | join packet =>
      intro other member
      rw [uncheckedFrom_join] at member
      split at member
      case isTrue =>
        cases List.mem_singleton.mp ((List.dropWhile_sublist _).subset member)
        rfl
      case isFalse =>
        rcases List.mem_append.mp member with older | newest
        · exact last other older
        · cases List.mem_singleton.mp newest
          rfl
  | leave =>
      cases queue with
      | nil => exact last
      | cons first rest =>
          intro other member
          cases isChecked : first.forwardChecked with
          | true =>
              apply last other
              unfold uncheckedFrom
              rw [List.dropWhile_cons_of_pos isChecked]
              exact member
          | false =>
              apply last other
              unfold uncheckedFrom
              rw [List.dropWhile_cons_of_neg (by simp [isChecked])]
              exact List.mem_cons_of_mem first ((List.dropWhile_sublist _).subset member)
  | check => exact uncheckedLast_of_checked _ checks

theorem runCalls_uncheckedLast (offsetBits : Nat) (matchOffsetBits : Bool) (kind : QueueKind)
    (calls : List ChannelCall) :
    ∀ channel : Channel, UncheckedLast (kind.of channel) →
      UncheckedLast (kind.of (runCalls offsetBits matchOffsetBits channel calls)) := by
  induction calls with
  | nil =>
      intro channel last
      exact last
  | cons next rest continues =>
      intro channel last
      have step := call_queue channel offsetBits matchOffsetBits kind next _
        (fun _isCheck => checkCollision_queue channel offsetBits matchOffsetBits kind)
      exact continues _ (step.uncheckedLast (settle_checked offsetBits matchOffsetBits _ kind _) last)

def empty (rqSize pqSize wqSize : Nat) : Channel := { rqSize, pqSize, wqSize }

/-- No check of collisions loses a requester, whatever the state, and the
requests that are not yet checked are the last ones of each queue. -/
theorem checkCollision_keepsRequesters (offsetBits : Nat) (matchOffsetBits : Bool) :
    (∀ channel : Channel, ∃ reads prefetches : List Response,
      (checkCollision offsetBits matchOffsetBits channel).returned =
        channel.returned ++ reads ++ prefetches ∧
      ExplainedByMerges channel.wq (checkCollision offsetBits matchOffsetBits channel).wq ∧
      Explained channel.rq (checkCollision offsetBits matchOffsetBits channel).rq reads ∧
      Explained channel.pq (checkCollision offsetBits matchOffsetBits channel).pq prefetches) ∧
    ∀ (rqSize pqSize wqSize : Nat) (calls : List ChannelCall) (kind : QueueKind),
      UncheckedLast
        (kind.of (runCalls offsetBits matchOffsetBits (empty rqSize pqSize wqSize) calls)) := by
  refine ⟨checkCollision_explained offsetBits matchOffsetBits, ?_⟩
  intro rqSize pqSize wqSize calls kind
  apply runCalls_uncheckedLast
  cases kind <;> exact uncheckedLast_of_checked _ (by simp [QueueKind.of, empty])

end Channel

end ChampSim.Cache

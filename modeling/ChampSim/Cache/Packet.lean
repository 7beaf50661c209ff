/-
The packets that travel between the levels of the memory hierarchy, the queues
of a channel, and the records that a cache keeps of the packets it has taken.

The statistics of a channel are left out: no modelled function reads them.
-/

import ChampSim.Address
import Mathlib.Data.List.TakeWhile
import Mathlib.Tactic.Tauto

set_option autoImplicit false

namespace ChampSim.Cache

inductive AccessType where
  | load
  | rfo
  | prefetch
  | write
  | translation
deriving DecidableEq, Repr

/-! ### Channels -/

structure Request where
  forwardChecked : Bool := false
  isTranslated : Bool := true
  responseRequested : Bool := true
  asid : BitVec 8 × BitVec 8 := (255, 255)
  type : AccessType := .load
  pfMetadata : BitVec 32 := 0
  cpu : Nat := 2 ^ 32 - 1
  address : Address := 0
  vAddress : Address := 0
  data : Address := 0
  instrId : Nat := 0
  ip : Address := 0
  instrDependOnMe : List Nat := []
deriving DecidableEq, Repr

structure Response where
  address : Address := 0
  vAddress : Address := 0
  data : Address := 0
  pfMetadata : BitVec 32 := 0
  instrDependOnMe : List Nat := []
deriving DecidableEq, Repr

structure Channel where
  rqSize : Nat
  pqSize : Nat
  wqSize : Nat
  rq : List Request := []
  pq : List Request := []
  wq : List Request := []
  returned : List Response := []
deriving DecidableEq, Repr

/-- `none` when the queue is full. -/
def doAddQueue (queue : List Request) (queueSize : Nat) (packet : Request) :
    Option (List Request) :=
  if queueSize ≤ queue.length then none
  else some (queue ++ [{ packet with forwardChecked := false }])

namespace Channel

def addRq (channel : Channel) (packet : Request) : Option Channel :=
  (doAddQueue channel.rq channel.rqSize packet).map (fun queue => { channel with rq := queue })

def addPq (channel : Channel) (packet : Request) : Option Channel :=
  (doAddQueue channel.pq channel.pqSize packet).map (fun queue => { channel with pq := queue })

def addWq (channel : Channel) (packet : Request) : Option Channel :=
  (doAddQueue channel.wq channel.wqSize packet).map (fun queue => { channel with wq := queue })

def pushReturned (channel : Channel) (response : Response) : Channel :=
  { channel with returned := channel.returned ++ [response] }

end Channel

/-! ### Records of a cache -/

/-- A value that becomes usable at `eventCycle`, once that is known. -/
structure Waitable (Value : Type) where
  value : Value
  eventCycle : Option Nat := none
deriving DecidableEq, Repr

namespace Waitable

variable {Value : Type}

def readyAt (promise : Waitable Value) (cycle : Nat) : Waitable Value :=
  { promise with eventCycle := some cycle }

def isReadyAt (promise : Waitable Value) (cycle : Nat) : Bool :=
  match promise.eventCycle with
  | some ready => decide (ready ≤ cycle)
  | none => false

def hasUnknownReadiness (promise : Waitable Value) : Bool := promise.eventCycle.isNone

end Waitable

/-- `eventCycle = none` stands for `time_point::max()`, and an entry of
`toReturn` names the upper level whose `returned` queue is meant. -/
structure TagLookup where
  address : Address
  vAddress : Address := 0
  data : Address := 0
  ip : Address := 0
  instrId : Nat := 0
  pfMetadata : BitVec 32 := 0
  cpu : Nat := 0
  type : AccessType
  prefetchFromThis : Bool := false
  skipFill : Bool := false
  isTranslated : Bool := true
  translateIssued : Bool := false
  asid : BitVec 8 × BitVec 8 := (255, 255)
  eventCycle : Option Nat := none
  instrDependOnMe : List Nat := []
  toReturn : List Nat := []
deriving DecidableEq, Repr

/-- `tag_lookup_type(req, local_pref, skip)`. -/
def TagLookup.ofRequest (request : Request) (localPref skip : Bool) : TagLookup :=
  { address := request.address
    vAddress := request.vAddress
    data := request.data
    ip := request.ip
    instrId := request.instrId
    pfMetadata := request.pfMetadata
    cpu := request.cpu
    type := request.type
    prefetchFromThis := localPref
    skipFill := skip
    isTranslated := request.isTranslated
    instrDependOnMe := request.instrDependOnMe }

structure ReturnedValue where
  data : Address := 0
  pfMetadata : BitVec 32 := 0
deriving DecidableEq, Repr

structure Mshr where
  address : Address
  vAddress : Address
  ip : Address
  instrId : Nat
  dataPromise : Waitable ReturnedValue
  cpu : Nat
  type : AccessType
  prefetchFromThis : Bool
  timeEnqueued : Nat
  instrDependOnMe : List Nat
  toReturn : List Nat
deriving DecidableEq, Repr

/-- `mshr_type(req, _time_enqueued)`. -/
def Mshr.ofTagLookup (request : TagLookup) (timeEnqueued : Nat) : Mshr :=
  { address := request.address
    vAddress := request.vAddress
    ip := request.ip
    instrId := request.instrId
    dataPromise := { value := {} }
    cpu := request.cpu
    type := request.type
    prefetchFromThis := request.prefetchFromThis
    timeEnqueued
    instrDependOnMe := request.instrDependOnMe
    toReturn := request.toReturn }

structure CacheBlock where
  valid : Bool := false
  prefetch : Bool := false
  dirty : Bool := false
  address : Address := 0
  vAddress : Address := 0
  data : Address := 0
  pfMetadata : BitVec 32 := 0
deriving DecidableEq, Repr, Inhabited

/-- `std::set_union`, also on ranges that are not sorted. -/
def setUnion : List Nat → List Nat → List Nat
  | [], second => second
  | value :: first, second =>
      let smaller := second.takeWhile (fun other => decide (other < value))
      let others := second.dropWhile (fun other => decide (other < value))
      smaller ++ value :: setUnion first (if others.head? = some value then others.tail else others)

/-- A union has the values of both ranges, in whatever order they are. -/
theorem mem_setUnion (first second : List Nat) (value : Nat) :
    value ∈ setUnion first second ↔ value ∈ first ∨ value ∈ second := by
  induction first generalizing second with
  | nil => simp [setUnion]
  | cons head rest ih =>
      have split : value ∈ second ↔
          value ∈ second.takeWhile (fun other => decide (other < head)) ∨
            value ∈ second.dropWhile (fun other => decide (other < head)) := by
        rw [← List.mem_append, List.takeWhile_append_dropWhile]
      unfold setUnion
      dsimp only
      rw [List.mem_append, List.mem_cons, ih, List.mem_cons, split]
      generalize second.dropWhile (fun other => decide (other < head)) = others
      cases others with
      | nil =>
          rw [if_neg (by simp)]
          tauto
      | cons next after =>
          by_cases same : next = head
          · subst same
            rw [List.head?_cons, if_pos rfl, List.tail_cons, List.mem_cons]
            tauto
          · rw [List.head?_cons, if_neg (fun equal => same (Option.some.inj equal))]
            tauto

theorem setUnion_increases (first second : List Nat) (increases : first.Pairwise (· < ·))
    (increasesToo : second.Pairwise (· < ·)) : (setUnion first second).Pairwise (· < ·) := by
  induction first generalizing second with
  | nil => exact increasesToo
  | cons head rest ih =>
      obtain ⟨above, restIncreases⟩ := List.pairwise_cons.mp increases
      have dropped := increasesToo.sublist
        (List.dropWhile_sublist (fun other => decide (other < head)))
      have taken := increasesToo.sublist
        (List.takeWhile_sublist (fun other => decide (other < head)))
      unfold setUnion
      dsimp only
      have later : ∀ others : List Nat, others.Pairwise (· < ·) → (∀ other ∈ others, head < other) →
          (second.takeWhile (fun other => decide (other < head)) ++
            head :: setUnion rest others).Pairwise (· < ·) := by
        intro others othersIncrease greater
        have after : ∀ value ∈ setUnion rest others, head < value := by
          intro value member
          rcases (mem_setUnion rest others value).mp member with inRest | inOthers
          · exact above value inRest
          · exact greater value inOthers
        refine List.pairwise_append.mpr ⟨taken,
          List.pairwise_cons.mpr ⟨after, ih others restIncreases othersIncrease⟩, ?_⟩
        intro value inTaken other inLater
        have smaller : value < head := of_decide_eq_true
          (List.mem_takeWhile_imp (p := fun other => decide (other < head)) inTaken)
        rcases List.mem_cons.mp inLater with isHead | inUnion
        · rw [isHead]
          exact smaller
        · exact smaller.trans (after other inUnion)
      have front : ∀ next after, second.dropWhile (fun other => decide (other < head)) =
          next :: after → head ≤ next := by
        intro next after isNext
        have stops := List.head?_dropWhile_not (fun other => decide (other < head)) second
        rw [isNext] at stops
        simpa using stops
      revert dropped front
      generalize second.dropWhile (fun other => decide (other < head)) = others
      intro dropped front
      cases others with
      | nil => exact later [] List.Pairwise.nil (by simp)
      | cons next after =>
          obtain ⟨nextBelow, afterIncreases⟩ := List.pairwise_cons.mp dropped
          have atLeast := front next after rfl
          split
          case isTrue same =>
            cases Option.some.inj same
            exact later after afterIncreases nextBelow
          case isFalse differs =>
            have greater : head < next := by
              have distinct : next ≠ head := fun same => differs (congrArg some same)
              omega
            apply later (next :: after) dropped
            intro other member
            rcases List.mem_cons.mp member with isNext | inAfter
            · rw [isNext]
              exact greater
            · exact greater.trans (nextBelow other inAfter)

namespace Mshr

/-- A prefetch never overwrites what it is merged into. -/
def merge (predecessor successor : Mshr) : Mshr :=
  let kept := if successor.type = .prefetch then predecessor else successor
  { kept with
    timeEnqueued :=
      if successor.type ≠ .prefetch ∧ predecessor.type = .prefetch then successor.timeEnqueued
      else predecessor.timeEnqueued
    instrDependOnMe := setUnion predecessor.instrDependOnMe successor.instrDependOnMe
    toReturn := setUnion predecessor.toReturn successor.toReturn
    dataPromise := predecessor.dataPromise }

theorem merge_type (predecessor successor : Mshr) :
    (predecessor.merge successor).type =
      if successor.type = .prefetch then predecessor.type else successor.type := by
  change (if successor.type = .prefetch then predecessor else successor).type = _
  exact apply_ite Mshr.type _ _ _

theorem merge_address (predecessor successor : Mshr) :
    (predecessor.merge successor).address =
      if successor.type = .prefetch then predecessor.address else successor.address := by
  change (if successor.type = .prefetch then predecessor else successor).address = _
  exact apply_ite Mshr.address _ _ _

def fillBlock (mshr : Mshr) (metadata : BitVec 32) : CacheBlock :=
  { valid := true
    prefetch := mshr.prefetchFromThis
    dirty := decide (mshr.type = .write)
    address := mshr.address
    vAddress := mshr.vAddress
    data := mshr.dataPromise.value.data
    pfMetadata := metadata }

end Mshr

end ChampSim.Cache

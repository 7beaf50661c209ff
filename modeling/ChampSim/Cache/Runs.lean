/-
Runs of a cache.

A cache operates by looking up, missing, returning and filling one packet after
another, in the order that its queues and bandwidths allow. The machine below
leaves this order open, together with everything that happens outside of the
cache.
-/

import ChampSim.Cache.Operation
import ChampSim.Library.Transition

set_option autoImplicit false

namespace ChampSim.Cache

open Transition

inductive Event where
  | cycle
  | tryHit (handlePkt : TagLookup)
  | handleMiss (handlePkt : TagLookup)
  | handleWrite (handlePkt : TagLookup)
  | finishPacket (packet : Response)
  | fillMshr
  | fillWrite
  | prefetchLine (call : PrefetchLine)
  | surroundings (lowerLevel : Channel) (upperLevels : Nat → Channel) (warmup : Bool)

namespace State

variable {config : Config} {Module : Type}

/-- The fill of the first record of a queue, once its data is ready. -/
def fillFront (hooks : Modules Module) (state : State config Module) :
    List Mshr → Option (Bool × State config Module)
  | [] => none
  | entry :: _ =>
      if entry.dataPromise.isReadyAt state.currentTime then handleFill hooks state entry else none

def step (hooks : Modules Module) (state : State config Module) :
    Event → Option (State config Module)
  | .cycle => some { state with currentTime := state.currentTime + config.clockPeriod }
  | .tryHit handlePkt => some (tryHit hooks state handlePkt).2
  | .handleMiss handlePkt => some (state.handleMiss handlePkt).2
  | .handleWrite handlePkt => some (state.handleWrite handlePkt).2
  | .finishPacket packet => state.finishPacket packet
  | .fillMshr => (fillFront hooks state state.mshr).map fun (filled, next) =>
      if filled then { next with mshr := next.mshr.tail } else next
  | .fillWrite => (fillFront hooks state state.inflightWrites).map fun (filled, next) =>
      if filled then { next with inflightWrites := next.inflightWrites.tail } else next
  | .prefetchLine call => some (state.prefetchLine call)
  | .surroundings lowerLevel upperLevels warmup =>
      some { state with lowerLevel, upperLevels, warmup }

end State

def machine {config : Config} {Module : Type} (hooks : Modules Module) :
    Machine (State config Module) Event where
  step := State.step hooks

/-! ### What each event does to the miss registers -/

namespace State

variable {config : Config} {Module : Type}

theorem prefetchLine_mshr (state : State config Module) (call : PrefetchLine) :
    (state.prefetchLine call).mshr = state.mshr := by
  unfold prefetchLine
  dsimp only
  split
  · rfl
  · rfl

theorem prefetchLines_mshr (state : State config Module) (calls : List PrefetchLine) :
    (state.prefetchLines calls).mshr = state.mshr := by
  unfold prefetchLines
  induction calls generalizing state with
  | nil => rfl
  | cons call rest ih =>
      rw [List.foldl_cons, ih]
      exact prefetchLine_mshr state call

theorem tryHit_mshr (hooks : Modules Module) (state : State config Module)
    (handlePkt : TagLookup) : (tryHit hooks state handlePkt).2.mshr = state.mshr := by
  unfold tryHit
  dsimp only
  split
  · change (respond _ _ _).mshr = state.mshr
    rw [respond_mshr]
    exact prefetchLines_mshr _ _
  · exact prefetchLines_mshr _ _

theorem completeFill_mshr (hooks : Modules Module) (state : State config Module)
    (fillMshr : Mshr) (way : Nat) :
    (completeFill hooks state fillMshr way).mshr = state.mshr := by
  unfold completeFill
  rw [respond_mshr]
  dsimp only [countStats]
  split
  · exact prefetchLines_mshr _ _
  · exact prefetchLines_mshr _ _

/-- A fill either stops at the refused writeback or completes in the chosen
way, after the replacement modules and perhaps the lower level were asked. -/
theorem handleFill_cases (hooks : Modules Module) (state next : State config Module)
    (fillMshr : Mshr) (filled : Bool)
    (ran : handleFill hooks state fillMshr = some (filled, next)) :
    ∃ modules way ready, fillWay hooks state fillMshr = some (modules, way) ∧
      (filled = false ∧ next = ready ∨
        filled = true ∧ next = completeFill hooks ready fillMshr way) ∧
      ∃ cpu lowerLevel, ready = { state with cpu, modules, lowerLevel } := by
  unfold handleFill at ran
  obtain ⟨⟨modules, way⟩, chosen, done⟩ := Option.map_eq_some_iff.mp ran
  dsimp only at done
  split at done
  · split at done
    · cases done
      exact ⟨modules, way, _, chosen, Or.inl ⟨rfl, rfl⟩, _, _, rfl⟩
    · cases done
      exact ⟨modules, way, _, chosen, Or.inr ⟨rfl, rfl⟩, _, _, rfl⟩
  · cases done
    exact ⟨modules, way, _, chosen, Or.inr ⟨rfl, rfl⟩, _, _, rfl⟩

theorem handleFill_mshr (hooks : Modules Module) (state next : State config Module)
    (fillMshr : Mshr) (filled : Bool)
    (ran : handleFill hooks state fillMshr = some (filled, next)) : next.mshr = state.mshr := by
  obtain ⟨_modules, way, ready, _chosen, done, _cpu, _lowerLevel, kept⟩ :=
    handleFill_cases hooks state next fillMshr filled ran
  rcases done with ⟨_refused, same⟩ | ⟨_accepted, same⟩
  · rw [same, kept]
  · rw [same, completeFill_mshr, kept]

theorem completeFill_blockAt (hooks : Modules Module) (state : State config Module)
    (fillMshr : Mshr) (way : Nat) (installed : way < config.numWay) :
    ∃ metadata, (completeFill hooks state fillMshr way).blockAt
      (config.getSetIndex fillMshr.address) way = fillMshr.fillBlock metadata := by
  unfold completeFill blockAt
  rw [respond_block]
  rw [if_neg (Nat.ne_of_lt installed)]
  exact ⟨_, blockAt_setBlock_same _ fillMshr.address way _ installed⟩

theorem fillFront_mshr (hooks : Modules Module) (state next : State config Module)
    (queue : List Mshr) (filled : Bool)
    (ran : fillFront hooks state queue = some (filled, next)) : next.mshr = state.mshr := by
  cases queue with
  | nil => cases ran
  | cons entry rest =>
      by_cases ready : entry.dataPromise.isReadyAt state.currentTime = true
      · rw [fillFront, if_pos ready] at ran
        exact handleFill_mshr hooks state next entry filled ran
      · rw [fillFront, if_neg ready] at ran
        cases ran

/-! ### Misses -/

theorem mshrIndex_found (state : State config Module) (address : Address) (entry : Mshr)
    (found : state.mshr[state.mshrIndex address]? = some entry) :
    config.blockNumber entry.address = config.blockNumber address := by
  have matched := List.findIdx_of_getElem?_eq_some found
  exact of_decide_eq_true matched

theorem mshrIndex_absent (state : State config Module) (address : Address)
    (absent : state.mshr[state.mshrIndex address]? = none) (entry : Mshr)
    (member : entry ∈ state.mshr) :
    config.blockNumber entry.address ≠ config.blockNumber address := by
  intro same
  have beyond := List.getElem?_eq_none_iff.mp absent
  have inside : state.mshrIndex address < state.mshr.length :=
    List.findIdx_lt_length_of_exists ⟨entry, member, decide_eq_true same⟩
  omega

end State

/-- Whether a miss to the block of an address is in flight. -/
def InFlight (config : Config) (mshr : List Mshr) (address : Address) : Prop :=
  ∃ entry ∈ mshr, config.blockNumber entry.address = config.blockNumber address

instance (config : Config) (mshr : List Mshr) (address : Address) :
    Decidable (InFlight config mshr address) :=
  inferInstanceAs (Decidable (∃ entry ∈ mshr, _))

/-- What `handle_miss` returns, and the registers after it. -/
inductive MissEffect (config : Config) (mshr : List Mshr) (currentTime : Nat)
    (handlePkt : TagLookup) : Bool → List Mshr → Prop where
  | merged (before after : List Mshr) (entry : Mshr) : mshr = before ++ entry :: after →
      config.blockNumber entry.address = config.blockNumber handlePkt.address →
      MissEffect config mshr currentTime handlePkt true
        (before ++ entry.merge (Mshr.ofTagLookup handlePkt currentTime) :: after)
  | allocated : ¬InFlight config mshr handlePkt.address →
      MissEffect config mshr currentTime handlePkt true
        (mshr ++ [Mshr.ofTagLookup handlePkt currentTime])
  | forwarded : ¬InFlight config mshr handlePkt.address →
      MissEffect config mshr currentTime handlePkt true mshr
  | refused : MissEffect config mshr currentTime handlePkt false mshr

namespace State

variable {config : Config} {Module : Type}

theorem forwardMiss_effect (state : State config Module) (handlePkt : TagLookup)
    (fresh : ¬InFlight config state.mshr handlePkt.address) :
    MissEffect config state.mshr state.currentTime handlePkt (state.forwardMiss handlePkt).1
      (state.forwardMiss handlePkt).2.mshr := by
  unfold forwardMiss
  split
  · exact .refused
  · dsimp only
    split
    · exact .refused
    · dsimp only [countMiss, countStats, withMshr]
      split
      · exact .allocated fresh
      · exact .forwarded fresh

theorem handleMiss_effect (state : State config Module) (handlePkt : TagLookup) :
    MissEffect config state.mshr state.currentTime handlePkt (state.handleMiss handlePkt).1
      (state.handleMiss handlePkt).2.mshr := by
  unfold handleMiss
  dsimp only
  split
  · rename_i entry found
    have same := mshrIndex_found _ handlePkt.address entry found
    obtain ⟨before, after, split, assigned⟩ := Positions.split_at _ _ entry found
    have merged : MissEffect config state.mshr state.currentTime handlePkt true
        (before ++ entry.merge (Mshr.ofTagLookup handlePkt state.currentTime) :: after) :=
      .merged before after entry split same
    rw [← assigned] at merged
    exact merged
  · rename_i absent
    refine forwardMiss_effect { state with cpu := handlePkt.cpu } handlePkt ?_
    rintro ⟨entry, member, same⟩
    exact mshrIndex_absent _ handlePkt.address absent entry member same

theorem finishPacket_effect (state next : State config Module) (packet : Response)
    (ran : state.finishPacket packet = some next) :
    ∃ before entry after promise, state.mshr = before ++ entry :: after ∧
      next.mshr.Perm (before ++ { entry with dataPromise := promise } :: after) := by
  unfold finishPacket at ran
  dsimp only at ran
  split at ran
  · cases ran
  · rename_i entry found
    obtain ⟨swapped, moved, same⟩ := Option.map_eq_some_iff.mp ran
    obtain ⟨before, after, split, assigned⟩ := Positions.split_at _ _ entry found
    rw [assigned] at moved
    subst same
    exact ⟨before, entry, after, _, split, Positions.swapAt_perm _ _ _ _ moved⟩

end State

end ChampSim.Cache

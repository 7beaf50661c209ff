/-
A cache between two calls of its member functions, and the part of it that its
prefetcher and replacement modules answer for.

A module is a state of its own with one function for each hook. A prefetcher
may ask for lines during a hook: a hook returns the `prefetch_line` calls it
makes, in order.
-/

import ChampSim.Cache.Packet
import ChampSim.Library.CArray

set_option autoImplicit false

namespace ChampSim.Cache

structure Config where
  numSet : Nat
  numWay : Nat
  mshrSize : Nat
  pqSize : Nat
  hitLatency : Nat
  fillLatency : Nat
  clockPeriod : Nat
  offsetBits : Nat
  prefetchAsLoad : Bool
  matchOffsetBits : Bool
  virtualPrefetch : Bool
  prefActivateMask : List AccessType
  hasSets : 0 < numSet

abbrev EventCounter := AccessType → Nat → Nat

def EventCounter.increment (counter : EventCounter) (type : AccessType) (cpu : Nat) :
    EventCounter :=
  fun otherType otherCpu =>
    if otherType = type ∧ otherCpu = cpu then counter otherType otherCpu + 1
    else counter otherType otherCpu

structure CacheStats where
  pfRequested : Nat := 0
  pfIssued : Nat := 0
  pfUseful : Nat := 0
  pfUseless : Nat := 0
  pfFill : Nat := 0
  hits : EventCounter := fun _ _ => 0
  misses : EventCounter := fun _ _ => 0
  mshrMerge : EventCounter := fun _ _ => 0
  mshrReturn : EventCounter := fun _ _ => 0
  totalMissLatencyCycles : Int := 0

/-- The arguments of one `prefetch_line`. -/
structure PrefetchLine where
  pfAddr : Address
  fillThisLevel : Bool
  prefetchMetadata : BitVec 32
deriving DecidableEq, Repr

/-- The `impl_` functions, which call the hooks of the attached modules. -/
structure Modules (Module : Type) where
  findVictim : Module → (triggeringCpu instrId set : Nat) → (currentSet : Int → CacheBlock) →
    (ip fullAddr : Address) → AccessType → Module × Int
  updateReplacementState : Module → (triggeringCpu set way : Nat) →
    (fullAddr ip victimAddr : Address) → AccessType → (hit : Bool) → Module
  replacementCacheFill : Module → (triggeringCpu set way : Nat) →
    (fullAddr ip victimAddr : Address) → AccessType → Module
  prefetcherCacheOperate : Module → (addr ip : Address) → (cacheHit usefulPrefetch : Bool) →
    AccessType → (metadataIn : BitVec 32) → Module × List PrefetchLine × BitVec 32
  prefetcherCacheFill : Module → (addr : Address) → (set way : Nat) → (prefetch : Bool) →
    (evictedAddr : Address) → (metadataIn : BitVec 32) → Module × List PrefetchLine × BitVec 32

/-- `upperLevels` holds every channel that a `toReturn` may name. -/
structure State (config : Config) (Module : Type) where
  currentTime : Nat := 0
  warmup : Bool := false
  cpu : Nat := 0
  block : CArray config.numSet (CArray config.numWay CacheBlock) := CArray.fill2 _ _ {}
  mshr : List Mshr := []
  inflightWrites : List Mshr := []
  internalPq : List TagLookup := []
  upperLevels : Nat → Channel
  lowerLevel : Channel
  simStats : CacheStats := {}
  modules : Module

/-! ### Addresses -/

namespace Config

variable (config : Config)

def blockNumber (address : Address) : BitVec 64 := address.sliceUpper config.offsetBits

def matchesAddress (addr other : Address) : Bool :=
  decide (config.blockNumber other = config.blockNumber addr)

def getSetIndex (address : Address) : Nat :=
  address.slice config.offsetBits (Nat.log2 config.numSet)

/-- The assertion of `get_set_span`. -/
theorem getSetIndex_lt (address : Address) : config.getSetIndex address < config.numSet := by
  have positive : 0 < 2 ^ Nat.log2 config.numSet := Nat.two_pow_pos _
  have below := Nat.mod_lt (address >>> config.offsetBits).toNat positive
  have atMost := Nat.log2_self_le (Nat.ne_of_gt config.hasSets)
  exact Nat.lt_of_lt_of_le below atMost

def moduleAddress (address vAddress : Address) : Address :=
  Address.alignDown (if config.virtualPrefetch then vAddress else address)
    (if config.matchOffsetBits then 0 else config.offsetBits)

def shouldActivatePrefetcher (packet : TagLookup) : Bool :=
  !packet.prefetchFromThis && decide (0 < config.prefActivateMask.count packet.type)

end Config

/-! ### Parts of a state -/

namespace State

variable {config : Config} {Module : Type}

def blockAt (state : State config Module) (set way : Nat) : CacheBlock :=
  state.block.at2 set way

/-- The first way of a set with a property, or `numWay`. -/
def findWay (state : State config Module) (set : Nat) (property : CacheBlock → Bool) : Nat :=
  (List.range config.numWay).findIdx (fun way => property (state.blockAt set way))

theorem findWay_le (state : State config Module) (set : Nat) (property : CacheBlock → Bool) :
    state.findWay set property ≤ config.numWay := by
  have bounded : (List.range config.numWay).findIdx (fun way => property (state.blockAt set way)) ≤
      (List.range config.numWay).length := List.findIdx_le_length
  rw [List.length_range] at bounded
  exact bounded

def setBlock (state : State config Module) (set way : Nat) (block : CacheBlock) :
    State config Module :=
  { state with block := state.block.set2 set way block }

theorem blockAt_setBlock_same (state : State config Module) (address : Address) (way : Nat)
    (block : CacheBlock) (within : way < config.numWay) :
    (state.setBlock (config.getSetIndex address) way block).blockAt
      (config.getSetIndex address) way = block := by
  have setWithin := config.getSetIndex_lt address
  apply CArray.at2_set2_same
  · exact ⟨by omega, by omega⟩
  · exact ⟨by omega, by omega⟩

def withMshr (state : State config Module) (mshr : List Mshr) : State config Module :=
  { state with mshr }

/-- The index of the entry of `MSHR` for a block, or the length. -/
def mshrIndex (state : State config Module) (address : Address) : Nat :=
  state.mshr.findIdx (fun entry => config.matchesAddress address entry.address)

def countStats (state : State config Module) (change : CacheStats → CacheStats) :
    State config Module :=
  { state with simStats := change state.simStats }

def pushResponse (response : Response) (state : State config Module) (upperLevel : Nat) :
    State config Module :=
  { state with
    upperLevels := fun level =>
      if level = upperLevel then (state.upperLevels level).pushReturned response
      else state.upperLevels level }

def respond (state : State config Module) (toReturn : List Nat) (response : Response) :
    State config Module :=
  toReturn.foldl (pushResponse response) state

theorem respond_mshr (state : State config Module) (toReturn : List Nat) (response : Response) :
    (state.respond toReturn response).mshr = state.mshr := by
  unfold respond
  induction toReturn generalizing state with
  | nil => rfl
  | cons level rest ih => exact ih (state.pushResponse response level)

theorem respond_block (state : State config Module) (toReturn : List Nat) (response : Response) :
    (state.respond toReturn response).block = state.block := by
  unfold respond
  induction toReturn generalizing state with
  | nil => rfl
  | cons level rest ih => exact ih (pushResponse response state level)

end State

end ChampSim.Cache

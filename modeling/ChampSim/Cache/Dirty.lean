/-
Which stores reach the dirty bit of a filled block.

A run is recorded beside, for every block, the requests that were collected in
its miss register since the register was allocated. The register keeps one
access type for all of them, and a fill derives the dirty bit from it: a store
survives the merges after it only while these are prefetches or stores.
-/

import ChampSim.Cache.Runs
import Mathlib.Logic.Function.Basic

set_option autoImplicit false

namespace ChampSim.Cache

open Transition

/-! ### The type that a register keeps -/

inductive Gathers : List TagLookup → AccessType → Prop where
  | allocated (request : TagLookup) : Gathers [request] request.type
  | merged {requests : List TagLookup} {type : AccessType} (request : TagLookup) :
      Gathers requests type →
      Gathers (requests ++ [request]) (if request.type = .prefetch then type else request.type)

def Written (requests : List TagLookup) : Prop := ∃ request ∈ requests, request.type = .write

def EndsInWrite (requests : List TagLookup) : Prop :=
  ∃ before write after, requests = before ++ write :: after ∧ write.type = .write ∧
    ∀ later ∈ after, later.type = .prefetch

theorem EndsInWrite.written {requests : List TagLookup} (ends : EndsInWrite requests) :
    Written requests := by
  obtain ⟨before, write, after, split, isWrite, _prefetches⟩ := ends
  subst split
  exact ⟨write, List.mem_append_right before List.mem_cons_self, isWrite⟩

theorem endsInWrite_singleton (request : TagLookup) :
    EndsInWrite [request] ↔ request.type = .write := by
  constructor
  · intro ends
    obtain ⟨only, member, isWrite⟩ := ends.written
    rw [List.mem_singleton] at member
    rw [← member]
    exact isWrite
  · intro isWrite
    refine ⟨[], request, [], rfl, isWrite, ?_⟩
    intro later member
    cases member

theorem endsInWrite_snoc (requests : List TagLookup) (request : TagLookup) :
    EndsInWrite (requests ++ [request]) ↔
      request.type = .write ∨ request.type = .prefetch ∧ EndsInWrite requests := by
  constructor
  · rintro ⟨before, write, after, split, isWrite, prefetches⟩
    rcases List.eq_nil_or_concat after with empty | ⟨initial, last, concat⟩
    · subst empty
      obtain ⟨_same, atEnd⟩ := List.append_inj' split rfl
      cases atEnd
      exact Or.inl isWrite
    · subst concat
      rw [List.concat_eq_append, ← List.cons_append, ← List.append_assoc] at split
      obtain ⟨same, atEnd⟩ := List.append_inj' split rfl
      cases atEnd
      have lastPrefetch := prefetches request (by rw [List.concat_eq_append]; simp)
      refine Or.inr ⟨lastPrefetch, before, write, initial, same, isWrite, ?_⟩
      intro later member
      apply prefetches later
      rw [List.concat_eq_append]
      exact List.mem_append_left _ member
  · intro either
    rcases either with isWrite | ⟨isPrefetch, before, write, after, split, isWrite, prefetches⟩
    · refine ⟨requests, request, [], rfl, isWrite, ?_⟩
      intro later member
      cases member
    · refine ⟨before, write, after ++ [request], ?_, isWrite, ?_⟩
      · rw [split, List.append_assoc, List.cons_append]
      · intro later member
        rcases List.mem_append.mp member with older | newest
        · exact prefetches later older
        · rw [List.mem_singleton.mp newest]
          exact isPrefetch

/-- A register ends with the type of a store exactly when no later merge was a
demand of another type. -/
theorem Gathers.type_eq_write {requests : List TagLookup} {type : AccessType}
    (gathers : Gathers requests type) : type = .write ↔ EndsInWrite requests := by
  induction gathers with
  | allocated request => exact (endsInWrite_singleton request).symm
  | merged request gathers ih =>
      rw [endsInWrite_snoc, ← ih]
      by_cases isPrefetch : request.type = .prefetch
      · rw [if_pos isPrefetch, isPrefetch]
        simp
      · rw [if_neg isPrefetch]
        simp [isPrefetch]

/-! ### Recorded runs -/

abbrev Collected := BitVec 64 → List TagLookup

def collectMiss (config : Config) (mshr : List Mshr) (handlePkt : TagLookup) (accepted : Bool)
    (collected : Collected) : Collected :=
  if accepted then
    Function.update collected (config.blockNumber handlePkt.address)
      (if InFlight config mshr handlePkt.address then
        collected (config.blockNumber handlePkt.address) ++ [handlePkt]
      else [handlePkt])
  else collected

def collect {config : Config} {Module : Type} (state : State config Module) (event : Event)
    (collected : Collected) : Collected :=
  match event with
  | .handleMiss handlePkt =>
      collectMiss config state.mshr handlePkt (state.handleMiss handlePkt).1 collected
  | _ => collected

/-- Every block has at most one register, whose type comes from the requests
collected for the block. -/
structure Explained (config : Config) (mshr : List Mshr) (collected : Collected) : Prop where
  distinct : (mshr.map (fun entry => config.blockNumber entry.address)).Nodup
  gathered : ∀ entry ∈ mshr, Gathers (collected (config.blockNumber entry.address)) entry.type

namespace Explained

variable {config : Config} {mshr : List Mshr} {collected : Collected}

theorem perm (explained : Explained config mshr collected) {moved : List Mshr}
    (same : moved.Perm mshr) : Explained config moved collected := by
  constructor
  · exact (same.map _).nodup_iff.mpr explained.distinct
  · intro entry member
    exact explained.gathered entry (same.mem_iff.mp member)

theorem tail (explained : Explained config mshr collected) :
    Explained config mshr.tail collected := by
  constructor
  · exact explained.distinct.sublist ((List.tail_sublist mshr).map _)
  · intro entry member
    exact explained.gathered entry (List.mem_of_mem_tail member)

/-- A register is overwritten, for the same block, as requests are collected. -/
theorem assign {before after : List Mshr} {entry : Mshr}
    (explained : Explained config (before ++ entry :: after) collected)
    (replacement : Mshr) (requests : List TagLookup)
    (same : config.blockNumber replacement.address = config.blockNumber entry.address)
    (gathers : Gathers requests replacement.type) :
    Explained config (before ++ replacement :: after)
      (Function.update collected (config.blockNumber entry.address) requests) := by
  have keys := explained.distinct
  rw [List.map_append, List.map_cons] at keys
  constructor
  · rw [List.map_append, List.map_cons, same]
    exact keys
  · have elsewhere : ∀ other ∈ before ++ after,
        config.blockNumber other.address ≠ config.blockNumber entry.address := by
      intro other member
      rw [List.nodup_middle, List.nodup_cons, ← List.map_append] at keys
      intro equal
      exact keys.1 (equal ▸ List.mem_map_of_mem member)
    have kept : ∀ other ∈ before ++ after,
        Gathers (Function.update collected (config.blockNumber entry.address) requests
          (config.blockNumber other.address)) other.type := by
      intro other member
      rw [Function.update_of_ne (elsewhere other member)]
      apply explained.gathered
      rcases List.mem_append.mp member with inBefore | inAfter
      · exact List.mem_append_left _ inBefore
      · exact List.mem_append_right _ (List.mem_cons_of_mem _ inAfter)
    intro other member
    rcases List.mem_append.mp member with inBefore | present
    · exact kept other (List.mem_append_left _ inBefore)
    · rcases List.mem_cons.mp present with atHead | inAfter
      · rw [atHead, same, Function.update_self]
        exact gathers
      · exact kept other (List.mem_append_right _ inAfter)

/-- What is collected for a block without a register says nothing yet. -/
theorem forget (explained : Explained config mshr collected) (address : Address)
    (fresh : ¬InFlight config mshr address) (requests : List TagLookup) :
    Explained config mshr
      (Function.update collected (config.blockNumber address) requests) := by
  constructor
  · exact explained.distinct
  · intro entry member
    have elsewhere : config.blockNumber entry.address ≠ config.blockNumber address :=
      fun same => fresh ⟨entry, member, same⟩
    rw [Function.update_of_ne elsewhere]
    exact explained.gathered entry member

theorem allocate (explained : Explained config mshr collected) (handlePkt : TagLookup)
    (currentTime : Nat) (fresh : ¬InFlight config mshr handlePkt.address) :
    Explained config (mshr ++ [Mshr.ofTagLookup handlePkt currentTime])
      (Function.update collected (config.blockNumber handlePkt.address) [handlePkt]) := by
  have older := explained.forget handlePkt.address fresh [handlePkt]
  constructor
  · rw [List.map_append, List.nodup_append]
    refine ⟨explained.distinct, List.nodup_singleton _, ?_⟩
    intro block present other isNew
    obtain ⟨entry, member, read⟩ := List.mem_map.mp present
    have newest : other = config.blockNumber handlePkt.address := List.mem_singleton.mp isNew
    intro equal
    exact fresh ⟨entry, member, read.trans (equal.trans newest)⟩
  · intro entry member
    rcases List.mem_append.mp member with inOlder | isNew
    · exact older.gathered entry inOlder
    · rw [List.mem_singleton.mp isNew]
      change Gathers (Function.update collected (config.blockNumber handlePkt.address)
        [handlePkt] (config.blockNumber handlePkt.address)) handlePkt.type
      rw [Function.update_self]
      exact .allocated handlePkt

theorem merge {before after : List Mshr} {entry : Mshr}
    (explained : Explained config (before ++ entry :: after) collected)
    (handlePkt : TagLookup) (currentTime : Nat)
    (same : config.blockNumber entry.address = config.blockNumber handlePkt.address) :
    Explained config
      (before ++ entry.merge (Mshr.ofTagLookup handlePkt currentTime) :: after)
      (Function.update collected (config.blockNumber handlePkt.address)
        (collected (config.blockNumber handlePkt.address) ++ [handlePkt])) := by
  have gathers := explained.gathered entry (List.mem_append_right _ List.mem_cons_self)
  rw [← same]
  apply explained.assign
  · rw [Mshr.merge_address, apply_ite config.blockNumber]
    change (if _ then config.blockNumber entry.address
      else config.blockNumber handlePkt.address) = config.blockNumber entry.address
    rw [← same, ite_self]
  · rw [Mshr.merge_type]
    exact .merged handlePkt gathers

theorem miss (explained : Explained config mshr collected) {handlePkt : TagLookup}
    {currentTime : Nat} {accepted : Bool} {next : List Mshr}
    (effect : MissEffect config mshr currentTime handlePkt accepted next) :
    Explained config next (collectMiss config mshr handlePkt accepted collected) := by
  unfold collectMiss
  cases effect with
  | merged before after entry split same =>
      have inFlight : InFlight config mshr handlePkt.address := by
        refine ⟨entry, ?_, same⟩
        rw [split]
        exact List.mem_append_right _ List.mem_cons_self
      rw [if_pos rfl, if_pos inFlight]
      subst split
      exact explained.merge handlePkt currentTime same
  | allocated fresh =>
      rw [if_pos rfl, if_neg fresh]
      exact explained.allocate handlePkt currentTime fresh
  | forwarded fresh =>
      rw [if_pos rfl, if_neg fresh]
      exact explained.forget handlePkt.address fresh [handlePkt]
  | refused => exact explained

theorem step {Module : Type} {hooks : Modules Module} {state next : State config Module}
    (explained : Explained config state.mshr collected) (event : Event)
    (stepped : State.step hooks state event = some next) :
    Explained config next.mshr (collect state event collected) := by
  cases event with
  | cycle =>
      cases stepped
      exact explained
  | tryHit handlePkt =>
      cases stepped
      rw [State.tryHit_mshr]
      exact explained
  | handleMiss handlePkt =>
      cases stepped
      exact explained.miss (state.handleMiss_effect handlePkt)
  | handleWrite handlePkt =>
      cases stepped
      exact explained
  | finishPacket packet =>
      obtain ⟨before, entry, after, promise, split, moved⟩ :=
        State.finishPacket_effect state next packet stepped
      have gathers := explained.gathered entry
        (split ▸ List.mem_append_right _ List.mem_cons_self)
      rw [split] at explained
      have finished := explained.assign { entry with dataPromise := promise } _ rfl gathers
      rw [Function.update_eq_self] at finished
      exact finished.perm moved
  | fillMshr =>
      obtain ⟨⟨filled, reached⟩, ran, done⟩ := Option.map_eq_some_iff.mp stepped
      rw [← State.fillFront_mshr hooks state reached _ filled ran] at explained
      cases filled with
      | false =>
          cases done
          exact explained
      | true =>
          cases done
          exact explained.tail
  | fillWrite =>
      obtain ⟨⟨filled, reached⟩, ran, done⟩ := Option.map_eq_some_iff.mp stepped
      rw [← State.fillFront_mshr hooks state reached _ filled ran] at explained
      cases filled with
      | false =>
          cases done
          exact explained
      | true =>
          cases done
          exact explained
  | prefetchLine call =>
      cases stepped
      rw [State.prefetchLine_mshr]
      exact explained
  | surroundings lowerLevel upperLevels warmup =>
      cases stepped
      exact explained

end Explained

/-- A run of a cache, recorded beside what its registers collect. -/
def recordedRun {config : Config} {Module : Type} (hooks : Modules Module)
    (start : State config Module) (events : List Event) :
    Option (State config Module × Collected) :=
  ((machine hooks).record collect).run (start, fun _ => []) events

theorem exists_recordedRun {config : Config} {Module : Type} (hooks : Modules Module)
    (start finish : State config Module) (events : List Event)
    (ran : (machine hooks).run start events = some finish) :
    ∃ collected, recordedRun hooks start events = some (finish, collected) :=
  (machine hooks).exists_recorded_run collect events start finish _ ran

theorem recordedRun_explained {config : Config} {Module : Type} (hooks : Modules Module)
    (start : State config Module) (fresh : start.mshr = []) (events : List Event)
    (reached : State config Module × Collected)
    (ran : recordedRun hooks start events = some reached) :
    Explained config reached.1.mshr reached.2 := by
  apply ((machine hooks).record collect).run_invariant
    (fun recorded => Explained config recorded.1.mshr recorded.2) ?_ events _ _ ?_ ran
  · intro recorded event next explained stepped
    obtain ⟨moved, noted⟩ := (Machine.record_step_iff _ _ _ _ _).mp stepped
    rw [← noted]
    exact explained.step event moved
  · constructor
    · rw [fresh]
      exact List.nodup_nil
    · intro entry member
      rw [fresh] at member
      cases member

/-! ### Filled blocks -/

/-- After some run, a miss that collected `requests` is filled with `block`. -/
inductive Installed {config : Config} {Module : Type} (hooks : Modules Module)
    (start : State config Module) : List TagLookup → CacheBlock → Prop where
  | filled {requests : List TagLookup} {block : CacheBlock} (events : List Event)
      (reached : State config Module × Collected) (entry : Mshr) (modules : Module) (way : Nat)
      (next : State config Module) : recordedRun hooks start events = some reached →
      entry ∈ reached.1.mshr → State.fillWay hooks reached.1 entry = some (modules, way) →
      way < config.numWay → State.handleFill hooks reached.1 entry = some (true, next) →
      reached.2 (config.blockNumber entry.address) = requests →
      next.blockAt (config.getSetIndex entry.address) way = block →
      Installed hooks start requests block

theorem handleFill_blockAt {config : Config} {Module : Type} (hooks : Modules Module)
    (state next : State config Module) (fillMshr : Mshr) (modules : Module) (way : Nat)
    (chosen : State.fillWay hooks state fillMshr = some (modules, way))
    (within : way < config.numWay)
    (ran : State.handleFill hooks state fillMshr = some (true, next)) :
    ∃ metadata, next.blockAt (config.getSetIndex fillMshr.address) way =
      fillMshr.fillBlock metadata := by
  obtain ⟨_modules, other, ready, choice, done, _kept⟩ :=
    State.handleFill_cases hooks state next fillMshr true ran
  cases chosen.symm.trans choice
  rcases done with ⟨impossible, _same⟩ | ⟨_accepted, same⟩
  · cases impossible
  · rw [same]
    exact State.completeFill_blockAt hooks ready fillMshr way within

theorem installed_dirty_iff {config : Config} {Module : Type} {hooks : Modules Module}
    {start : State config Module} (fresh : start.mshr = []) {requests : List TagLookup}
    {block : CacheBlock} (installed : Installed hooks start requests block) :
    block.dirty = true ↔ EndsInWrite requests := by
  cases installed with
  | filled events reached entry modules way next ran member chosen within fills collects holds =>
      have explained := recordedRun_explained hooks start fresh events reached ran
      obtain ⟨metadata, same⟩ :=
        handleFill_blockAt hooks reached.1 next entry modules way chosen within fills
      have gathers := explained.gathered entry member
      rw [collects] at gathers
      rw [← holds, same, ← gathers.type_eq_write]
      exact decide_eq_true_iff

/-- A filled block is dirty exactly for the misses that collected a store,
exactly when no demand of another type was collected after the last store. -/
theorem installed_dirtyIfWritten_iff {config : Config} {Module : Type} {hooks : Modules Module}
    {start : State config Module} (fresh : start.mshr = []) {requests : List TagLookup}
    {block : CacheBlock} (installed : Installed hooks start requests block) :
    (block.dirty = true ↔ Written requests) ↔ (Written requests → EndsInWrite requests) := by
  rw [installed_dirty_iff fresh installed]
  constructor
  · intro both
    exact both.mpr
  · intro kept
    exact ⟨EndsInWrite.written, kept⟩

/-! ### A store before a load -/

def oneBlock : Config where
  numSet := 1
  numWay := 1
  mshrSize := 2
  pqSize := 2
  hitLatency := 1
  fillLatency := 1
  clockPeriod := 1
  offsetBits := 6
  prefetchAsLoad := false
  matchOffsetBits := true
  virtualPrefetch := false
  prefActivateMask := []
  hasSets := by decide

def silentModules : Modules Unit where
  findVictim _ _ _ _ _ _ _ _ := ((), 0)
  updateReplacementState _ _ _ _ _ _ _ _ _ := ()
  replacementCacheFill _ _ _ _ _ _ _ _ := ()
  prefetcherCacheOperate _ _ _ _ _ _ metadata := ((), [], metadata)
  prefetcherCacheFill _ _ _ _ _ _ metadata := ((), [], metadata)

def emptyCache : State oneBlock Unit where
  upperLevels _ := { rqSize := 4, pqSize := 4, wqSize := 4 }
  lowerLevel := { rqSize := 4, pqSize := 4, wqSize := 4 }
  modules := ()

def storeMiss : TagLookup := { address := 0x40, type := .write }

def loadMiss : TagLookup := { address := 0x48, type := .load }

/-- The second request to the block misses before the data is back. -/
def missesOf (first second : TagLookup) : List Event :=
  [.tryHit first, .tryHit second, .handleMiss first, .handleMiss second,
    .finishPacket { address := 0x40 }, .cycle]

private theorem installed_store_load :
    ∃ block, Installed silentModules emptyCache [storeMiss, loadMiss] block ∧ block.dirty = false := by
  have filled : Installed silentModules emptyCache [storeMiss, loadMiss] _ :=
    .filled (missesOf storeMiss loadMiss) _ _ () 0 _ rfl List.mem_cons_self rfl Nat.zero_lt_one rfl rfl rfl
  exact ⟨_, filled, rfl⟩

private theorem installed_load_store :
    ∃ block, Installed silentModules emptyCache [loadMiss, storeMiss] block := by
  have filled : Installed silentModules emptyCache [loadMiss, storeMiss] _ :=
    .filled (missesOf loadMiss storeMiss) _ _ () 0 _ rfl List.mem_cons_self rfl Nat.zero_lt_one rfl rfl rfl
  exact ⟨_, filled⟩

theorem installed_dirtyIfWritten_iff_load_store :
    ∃ block, Installed silentModules emptyCache [loadMiss, storeMiss] block ∧
      ((block.dirty = true ↔ Written [loadMiss, storeMiss]) ↔
        (Written [loadMiss, storeMiss] → EndsInWrite [loadMiss, storeMiss])) := by
  obtain ⟨block, installed⟩ := installed_load_store
  exact ⟨block, installed, installed_dirtyIfWritten_iff rfl installed⟩

/-- A load to the block of a store in flight loses the dirty bit. -/
theorem store_load_not_dirtyIfWritten :
    ¬∀ requests block, Installed silentModules emptyCache requests block →
      (block.dirty = true ↔ Written requests) := by
  intro dirtyIfWritten
  obtain ⟨block, installed, clean⟩ := installed_store_load
  have dirty := (dirtyIfWritten [storeMiss, loadMiss] block installed).mpr
    ⟨storeMiss, List.mem_cons_self, rfl⟩
  rw [clean] at dirty
  cases dirty

end ChampSim.Cache

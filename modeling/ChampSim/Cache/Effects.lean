/-
What one tag check, one fill and one miss change in a cache.

Each relation names every part of the state that the member function may
change, so that everything else is unchanged by definition.
-/

import ChampSim.Cache.Runs

set_option autoImplicit false

namespace ChampSim.Cache

/-! ### Responses -/

/-- The channels above after one response to every requester. -/
def respondLevels (levels : Nat → Channel) (toReturn : List Nat) (response : Response) :
    Nat → Channel :=
  toReturn.foldl (fun channels level other =>
    if other = level then (channels other).pushReturned response else channels other) levels

theorem respondLevels_returned (levels : Nat → Channel) (toReturn : List Nat)
    (response : Response) (level : Nat) :
    (respondLevels levels toReturn response level).returned =
      (levels level).returned ++ List.replicate (toReturn.count level) response := by
  unfold respondLevels
  induction toReturn generalizing levels with
  | nil => simp
  | cons head rest ih =>
      rw [List.foldl_cons, ih, List.count_cons]
      by_cases same : level = head
      · subst same
        simp [Channel.pushReturned, List.replicate_succ]
      · have other : (head == level) = false := beq_eq_false_iff_ne.mpr (Ne.symm same)
        simp [same, other]

/-! ### Prefetches -/

/-- Prefetches that a cache asks of itself, which answer to no one. -/
def Issued (added : List TagLookup) : Prop :=
  ∀ entry ∈ added, entry.prefetchFromThis = true ∧ entry.toReturn = [] ∧
    entry.instrDependOnMe = []

theorem Issued.nil : Issued [] := by
  intro entry member
  cases member

theorem Issued.append {first second : List TagLookup} (firstIssued : Issued first)
    (secondIssued : Issued second) : Issued (first ++ second) := by
  intro entry member
  rcases List.mem_append.mp member with earlier | later
  · exact firstIssued entry earlier
  · exact secondIssued entry later

namespace State

variable {config : Config} {Module : Type}

theorem respond_eq (state : State config Module) (toReturn : List Nat) (response : Response) :
    state.respond toReturn response =
      { state with upperLevels := respondLevels state.upperLevels toReturn response } := by
  unfold respond respondLevels
  induction toReturn generalizing state with
  | nil => rfl
  | cons level rest ih => exact ih (pushResponse response state level)

theorem prefetchLine_shape (state : State config Module) (call : PrefetchLine) :
    ∃ added simStats, Issued added ∧ state.prefetchLine call =
      { state with internalPq := state.internalPq ++ added, simStats } := by
  unfold prefetchLine
  dsimp only
  split
  · refine ⟨[], { state.simStats with pfRequested := state.simStats.pfRequested + 1 },
      Issued.nil, ?_⟩
    rw [List.append_nil]
    rfl
  · refine ⟨_, _, ?_, rfl⟩
    intro entry member
    rw [List.mem_singleton.mp member]
    exact ⟨rfl, rfl, rfl⟩

theorem prefetchLines_shape (state : State config Module) (calls : List PrefetchLine) :
    ∃ added simStats, Issued added ∧ state.prefetchLines calls =
      { state with internalPq := state.internalPq ++ added, simStats } := by
  unfold prefetchLines
  induction calls generalizing state with
  | nil =>
      refine ⟨[], state.simStats, Issued.nil, ?_⟩
      rw [List.append_nil]
      rfl
  | cons call rest ih =>
      obtain ⟨first, stats, firstIssued, asked⟩ := prefetchLine_shape state call
      obtain ⟨later, lastStats, laterIssued, others⟩ := ih (state.prefetchLine call)
      refine ⟨first ++ later, lastStats, firstIssued.append laterIssued, ?_⟩
      rw [List.foldl_cons, others, asked, ← List.append_assoc]

/-! ### Tag checks -/

def Holds (state : State config Module) (address : Address) (way : Nat) : Prop :=
  (state.blockAt (config.getSetIndex address) way).valid = true ∧
    config.blockNumber (state.blockAt (config.getSetIndex address) way).address =
      config.blockNumber address

end State

def hitResponse (handlePkt : TagLookup) (data : Address) (metadata : BitVec 32) : Response :=
  { address := handlePkt.address
    vAddress := handlePkt.vAddress
    data
    pfMetadata := metadata
    instrDependOnMe := handlePkt.instrDependOnMe }

def fillResponse (fillMshr : Mshr) (metadata : BitVec 32) : Response :=
  { address := fillMshr.address
    vAddress := fillMshr.vAddress
    data := fillMshr.dataPromise.value.data
    pfMetadata := metadata
    instrDependOnMe := fillMshr.instrDependOnMe }

/-- What `try_hit` returns, and the state after it. -/
inductive HitEffect {config : Config} {Module : Type} (state : State config Module)
    (handlePkt : TagLookup) : Bool → State config Module → Prop where
  | missed (cpu : Nat) (added : List TagLookup) (simStats : CacheStats) (modules : Module) :
      Issued added → (∀ way < config.numWay, ¬state.Holds handlePkt.address way) →
      HitEffect state handlePkt false
        { state with cpu, internalPq := state.internalPq ++ added, simStats, modules }
  | hit (cpu : Nat) (added : List TagLookup) (simStats : CacheStats) (modules : Module)
      (way : Nat) (prefetch : Bool) (metadata : BitVec 32) :
      Issued added → way < config.numWay → state.Holds handlePkt.address way →
      HitEffect state handlePkt true
        { state with
          cpu
          internalPq := state.internalPq ++ added
          simStats
          modules
          upperLevels := respondLevels state.upperLevels handlePkt.toReturn
            (hitResponse handlePkt
              (state.blockAt (config.getSetIndex handlePkt.address) way).data metadata)
          block := state.block.set2 (config.getSetIndex handlePkt.address : Nat) way
            { state.blockAt (config.getSetIndex handlePkt.address) way with
              dirty := (state.blockAt (config.getSetIndex handlePkt.address) way).dirty ||
                decide (handlePkt.type = .write)
              prefetch } }

namespace State

variable {config : Config} {Module : Type}

theorem findWay_absent (state : State config Module) (set : Nat) (property : CacheBlock → Bool)
    (absent : state.findWay set property = config.numWay) (way : Nat)
    (within : way < config.numWay) : property (state.blockAt set way) = false := by
  have none := List.findIdx_eq_length.mp (absent.trans List.length_range.symm)
  exact none way (List.mem_range.mpr within)

theorem findWay_found (state : State config Module) (set : Nat) (property : CacheBlock → Bool)
    (found : state.findWay set property ≠ config.numWay) :
    state.findWay set property < config.numWay ∧
      property (state.blockAt set (state.findWay set property)) = true := by
  have within := Nat.lt_of_le_of_ne (state.findWay_le set property) found
  have inside : (List.range config.numWay).findIdx (fun way => property (state.blockAt set way)) <
      (List.range config.numWay).length := by
    rw [List.length_range]
    exact within
  have holds := List.findIdx_getElem (w := inside)
  simp only [List.getElem_range] at holds
  exact ⟨within, holds⟩

theorem tryHit_effect (hooks : Modules Module) (state : State config Module)
    (handlePkt : TagLookup) :
    HitEffect state handlePkt (tryHit hooks state handlePkt).1
      (tryHit hooks state handlePkt).2 := by
  unfold tryHit
  dsimp only
  generalize (if config.shouldActivatePrefetcher handlePkt = true then _ else _ :
    Module × List PrefetchLine × BitVec 32) = asked
  obtain ⟨added, stats, issued, prefetched⟩ :=
    prefetchLines_shape { state with cpu := handlePkt.cpu } asked.2.1
  rw [prefetched]
  split
  · rename_i hit
    obtain ⟨within, holds⟩ := findWay_found _ _ _ (of_decide_eq_true hit)
    rw [Bool.and_eq_true] at holds
    have here : state.Holds handlePkt.address _ := ⟨holds.1, of_decide_eq_true holds.2⟩
    rw [respond_eq]
    exact .hit _ added _ _ _ _ _ issued within here
  · rename_i missed
    have absent : state.findWay (config.getSetIndex handlePkt.address)
        (fun block => block.valid && config.matchesAddress handlePkt.address block.address) =
          config.numWay := by
      by_contra different
      exact missed (decide_eq_true different)
    apply HitEffect.missed _ _ _ _ issued
    intro way within holds
    have different := findWay_absent state _ _ absent way within
    rw [holds.1, Bool.true_and] at different
    exact of_decide_eq_false different holds.2

/-! ### Fills -/

/-- The lower level after the victim of a fill is written back, if it is dirty. -/
def WrittenBack (state : State config Module) (fillMshr : Mshr) (victim : CacheBlock)
    (lowerLevel : Channel) : Prop :=
  if victim.valid = true ∧ victim.dirty = true then
    state.lowerLevel.addWq (writebackPacket fillMshr victim) = some lowerLevel
  else lowerLevel = state.lowerLevel

end State

/-- What `handle_fill` returns, and the state after it. -/
inductive FillEffect {config : Config} {Module : Type} (state : State config Module)
    (fillMshr : Mshr) : Bool → State config Module → Prop where
  | refused (cpu : Nat) (modules : Module) (way : Nat) :
      way < config.numWay →
      (state.blockAt (config.getSetIndex fillMshr.address) way).valid = true →
      (state.blockAt (config.getSetIndex fillMshr.address) way).dirty = true →
      state.lowerLevel.addWq (State.writebackPacket fillMshr
        (state.blockAt (config.getSetIndex fillMshr.address) way)) = none →
      FillEffect state fillMshr false { state with cpu, modules }
  | bypassed (cpu : Nat) (added : List TagLookup) (simStats : CacheStats) (modules : Module)
      (metadata : BitVec 32) : Issued added → fillMshr.type ≠ .write →
      FillEffect state fillMshr true
        { state with
          cpu
          internalPq := state.internalPq ++ added
          simStats
          modules
          upperLevels := respondLevels state.upperLevels fillMshr.toReturn
            (fillResponse fillMshr metadata) }
  | installed (cpu : Nat) (added : List TagLookup) (simStats : CacheStats) (modules : Module)
      (metadata : BitVec 32) (way : Nat) (lowerLevel : Channel) : Issued added → way < config.numWay →
      state.WrittenBack fillMshr (state.blockAt (config.getSetIndex fillMshr.address) way)
        lowerLevel →
      FillEffect state fillMshr true
        { state with
          cpu
          internalPq := state.internalPq ++ added
          simStats
          modules
          lowerLevel
          upperLevels := respondLevels state.upperLevels fillMshr.toReturn
            (fillResponse fillMshr metadata)
          block := state.block.set2 (config.getSetIndex fillMshr.address : Nat) way
            (fillMshr.fillBlock metadata) }

namespace State

variable {config : Config} {Module : Type}

/-- The way a fill takes is a way of the set, or none and the fill is no write. -/
theorem fillWay_within (hooks : Modules Module) (state : State config Module) (fillMshr : Mshr)
    (modules : Module) (way : Nat) (chosen : fillWay hooks state fillMshr = some (modules, way)) :
    way < config.numWay ∨ way = config.numWay ∧ fillMshr.type ≠ .write := by
  unfold fillWay at chosen
  dsimp only at chosen
  split at chosen
  · rename_i free
    cases chosen
    exact Or.inl free
  · split at chosen
    · rename_i allowed
      cases chosen
      rcases Nat.lt_or_ge (hooks.findVictim state.modules fillMshr.cpu fillMshr.instrId
        (config.getSetIndex fillMshr.address) (state.block.get
          (config.getSetIndex fillMshr.address)).get fillMshr.ip fillMshr.address
          fillMshr.type).2.toNat config.numWay with within | beyond
      · exact Or.inl within
      · refine Or.inr ⟨by omega, allowed.2.2.resolve_left (fun different => different ?_)⟩
        omega
    · cases chosen

theorem completeFill_effect (hooks : Modules Module) (state : State config Module)
    (fillMshr : Mshr) (cpu : Nat) (modules : Module) (lowerLevel : Channel) (way : Nat)
    (within : way < config.numWay)
    (written : state.WrittenBack fillMshr
      (state.blockAt (config.getSetIndex fillMshr.address) way) lowerLevel) :
    FillEffect state fillMshr true
      (completeFill hooks { state with cpu, modules, lowerLevel } fillMshr way) := by
  unfold completeFill
  dsimp only
  rw [if_neg (Nat.ne_of_lt within), respond_eq]
  obtain ⟨added, stats, issued, asked⟩ := prefetchLines_shape { state with cpu, modules, lowerLevel } _
  rw [asked]
  exact .installed cpu added _ _ _ way lowerLevel issued within written

theorem completeFill_bypass (hooks : Modules Module) (state : State config Module)
    (fillMshr : Mshr) (cpu : Nat) (modules : Module) (readable : fillMshr.type ≠ .write) :
    FillEffect state fillMshr true
      (completeFill hooks { state with cpu, modules } fillMshr config.numWay) := by
  unfold completeFill
  dsimp only
  rw [if_pos rfl, respond_eq]
  obtain ⟨added, stats, issued, asked⟩ := prefetchLines_shape { state with cpu, modules } _
  rw [asked]
  exact .bypassed cpu added _ _ _ issued readable

theorem handleFill_effect (hooks : Modules Module) (state next : State config Module)
    (fillMshr : Mshr) (filled : Bool)
    (ran : handleFill hooks state fillMshr = some (filled, next)) :
    FillEffect state fillMshr filled next := by
  unfold handleFill at ran
  obtain ⟨⟨modules, way⟩, chosen, done⟩ := Option.map_eq_some_iff.mp ran
  dsimp only at done
  rcases fillWay_within hooks state fillMshr modules way chosen with within | ⟨bypass, readable⟩
  · by_cases dirty : (state.blockAt (config.getSetIndex fillMshr.address) way).valid = true ∧
        (state.blockAt (config.getSetIndex fillMshr.address) way).dirty = true
    · rw [if_pos ⟨Nat.ne_of_lt within, dirty.1, dirty.2⟩] at done
      split at done
      · rename_i full
        cases done
        exact .refused fillMshr.cpu modules way within dirty.1 dirty.2 full
      · rename_i lowerLevel accepted
        cases done
        apply completeFill_effect hooks state fillMshr fillMshr.cpu modules lowerLevel way within
        rw [WrittenBack, if_pos dirty]
        exact accepted
    · rw [if_neg (fun evicts => dirty evicts.2)] at done
      cases done
      apply completeFill_effect hooks state fillMshr fillMshr.cpu modules state.lowerLevel way
        within
      rw [WrittenBack, if_neg dirty]
  · subst bypass
    rw [if_neg (fun evicts => evicts.1 rfl)] at done
    cases done
    exact completeFill_bypass hooks state fillMshr fillMshr.cpu modules readable

/-! ### Misses -/

/-- The queue of the lower level that a miss is sent to, or `none` when it is full. -/
def sendMiss (state : State config Module) (handlePkt : TagLookup) : Option Channel :=
  if config.prefetchAsLoad = true ∨ handlePkt.type ≠ .prefetch then
    state.lowerLevel.addRq (state.mshrAndForwardPacket handlePkt).2
  else state.lowerLevel.addPq (state.mshrAndForwardPacket handlePkt).2

end State

/-- Whether the packet of a miss asks the lower level for a response. -/
def asksResponse (handlePkt : TagLookup) : Bool :=
  !handlePkt.prefetchFromThis || !handlePkt.skipFill

/-- What `handle_miss` returns, and the state after it. -/
inductive MissStep {config : Config} {Module : Type} (state : State config Module)
    (handlePkt : TagLookup) : Bool → State config Module → Prop where
  | merged (cpu : Nat) (simStats : CacheStats) (before after : List Mshr) (entry : Mshr) :
      state.mshr = before ++ entry :: after →
      config.blockNumber entry.address = config.blockNumber handlePkt.address →
      MissStep state handlePkt true
        { state with
          cpu
          simStats
          mshr := before ++ entry.merge (Mshr.ofTagLookup handlePkt state.currentTime) :: after }
  | refused (cpu : Nat) : MissStep state handlePkt false { state with cpu }
  | forwarded (cpu : Nat) (simStats : CacheStats) (lowerLevel : Channel) :
      ¬InFlight config state.mshr handlePkt.address → state.mshr.length ≠ config.mshrSize →
      state.sendMiss handlePkt = some lowerLevel →
      MissStep state handlePkt true
        { state with
          cpu
          simStats
          lowerLevel
          mshr := if asksResponse handlePkt then
              state.mshr ++ [Mshr.ofTagLookup handlePkt state.currentTime]
            else state.mshr }

namespace State

variable {config : Config} {Module : Type}

theorem forwardMiss_step (state : State config Module) (handlePkt : TagLookup) (cpu : Nat)
    (fresh : ¬InFlight config state.mshr handlePkt.address) :
    MissStep state handlePkt (forwardMiss { state with cpu } handlePkt).1
      (forwardMiss { state with cpu } handlePkt).2 := by
  unfold forwardMiss
  dsimp only
  split
  · exact .refused cpu
  · rename_i free
    split
    · exact .refused cpu
    · rename_i lowerLevel sent
      exact .forwarded cpu _ lowerLevel fresh free sent

theorem handleMiss_step (state : State config Module) (handlePkt : TagLookup) :
    MissStep state handlePkt (state.handleMiss handlePkt).1 (state.handleMiss handlePkt).2 := by
  unfold handleMiss
  dsimp only
  split
  · rename_i entry found
    have same := mshrIndex_found _ handlePkt.address entry found
    obtain ⟨before, after, split, assigned⟩ := Positions.split_at _ _ entry found
    unfold mergeMiss
    dsimp only [countMiss, countStats, withMshr]
    rw [assigned]
    exact .merged _ _ before after entry split same
  · rename_i absent
    apply forwardMiss_step
    rintro ⟨entry, member, same⟩
    exact mshrIndex_absent _ handlePkt.address absent entry member same

end State

end ChampSim.Cache

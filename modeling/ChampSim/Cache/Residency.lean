/-
How often a block resides in a cache.

A block is installed by a miss that returns and by a write from above. A tag
check that finds neither copy nor record of its block makes the only record of
it, and the fill of an only record makes the only copy.
-/

import ChampSim.Cache.Returns

set_option autoImplicit false

namespace ChampSim.Cache

open Transition

def Config.setOf (config : Config) (block : BitVec 64) : Nat :=
  block.toNat % 2 ^ Nat.log2 config.numSet

theorem Config.getSetIndex_eq (config : Config) (address : Address) :
    config.getSetIndex address = config.setOf (config.blockNumber address) := rfl

namespace State

variable {config : Config} {Module : Type}

def Resident (state : State config Module) (set way : Nat) (block : BitVec 64) : Prop :=
  (state.blockAt set way).valid = true ∧
    config.blockNumber (state.blockAt set way).address = block

instance (state : State config Module) (set way : Nat) (block : BitVec 64) :
    Decidable (state.Resident set way block) :=
  inferInstanceAs (Decidable (_ ∧ _))

def ResidentOnce (state : State config Module) (block : BitVec 64) : Prop :=
  ∀ set way other, state.Resident set way block → state.Resident set other block → way = other

def pendingBlocks (state : State config Module) : List (BitVec 64) :=
  (state.mshr ++ state.inflightWrites).map (Mshr.block config)

theorem Resident.within {state : State config Module} {set way : Nat} {block : BitVec 64}
    (resident : state.Resident set way block) : way < config.numWay := by
  by_contra beyond
  have outside : ¬CArray.InBounds config.numWay (way : Int) := by
    unfold CArray.InBounds
    omega
  have valid := resident.1
  rw [blockAt, CArray.at2, CArray.get_outside _ _ outside] at valid
  cases valid

/-- A resident block after an assignment was assigned or resident before. -/
theorem resident_set2 {state next : State config Module} (address : Address) (way : Nat)
    (within : way < config.numWay) (assigned : CacheBlock)
    (same : next.block = state.block.set2 (config.getSetIndex address : Nat) way assigned)
    (set other : Nat) (block : BitVec 64) (resident : next.Resident set other block) :
    (set = config.getSetIndex address ∧ other = way) ∧ assigned.valid = true ∧
        config.blockNumber assigned.address = block ∨
      state.Resident set other block ∧ ¬(set = config.getSetIndex address ∧ other = way) := by
  obtain ⟨valid, named⟩ := resident
  rw [blockAt, same, CArray.at2_set2 _ _ _ _ _ _ (config.getSetIndex_lt address) within]
    at valid named
  by_cases here : set = config.getSetIndex address ∧ other = way
  · rw [if_pos here] at valid named
    exact Or.inl ⟨here, valid, named⟩
  · rw [if_neg here] at valid named
    exact Or.inr ⟨⟨valid, named⟩, here⟩

theorem filled_block {state next : State config Module} {entry : Mshr}
    (effect : FillEffect state entry true next) :
    next.block = state.block ∨ ∃ way metadata, way < config.numWay ∧
      next.block = state.block.set2 (config.getSetIndex entry.address : Nat) way
        (entry.fillBlock metadata) := by
  cases effect with
  | bypassed cpu added simStats modules metadata issued readable => exact Or.inl rfl
  | installed cpu added simStats modules metadata way lowerLevel issued within written =>
      exact Or.inr ⟨way, metadata, within, rfl⟩

theorem checked_resident {state next : State config Module} {handlePkt : TagLookup}
    {accepted : Bool} (effect : HitEffect state handlePkt accepted next) (set way : Nat)
    (block : BitVec 64) : next.Resident set way block ↔ state.Resident set way block := by
  cases effect with
  | missed cpu added simStats modules issued absent => exact Iff.rfl
  | hit cpu added simStats modules found prefetch metadata issued within holds =>
      unfold Resident blockAt
      rw [CArray.at2_set2 _ _ _ _ _ _ (config.getSetIndex_lt handlePkt.address) within]
      split
      · rename_i here
        rw [here.1, here.2]
      · exact Iff.rfl

theorem checked_pending {state next : State config Module} {handlePkt : TagLookup}
    {accepted : Bool} (effect : HitEffect state handlePkt accepted next) :
    next.pendingBlocks = state.pendingBlocks := by
  cases effect with
  | missed => rfl
  | hit => rfl

theorem checked_inflightWrites {state next : State config Module} {handlePkt : TagLookup}
    {accepted : Bool} (effect : HitEffect state handlePkt accepted next) :
    next.inflightWrites = state.inflightWrites := by
  cases effect with
  | missed => rfl
  | hit => rfl

def Unknown (state : State config Module) (handlePkt : TagLookup) : Prop :=
  ∀ way, ¬state.Resident (config.getSetIndex handlePkt.address) way
    (config.blockNumber handlePkt.address)

theorem missed_unknown {state next : State config Module} {handlePkt : TagLookup}
    (effect : HitEffect state handlePkt false next) : next.Unknown handlePkt := by
  intro way
  rw [checked_resident effect]
  intro resident
  cases effect with
  | missed cpu added simStats modules issued absent => exact absent way resident.within resident

/-- A miss leaves every way as it is, and records no block but its own. -/
theorem doHandleMiss_pending (state : State config Module) (handlePkt : TagLookup) :
    (state.doHandleMiss handlePkt).2.block = state.block ∧
      ((state.doHandleMiss handlePkt).2.pendingBlocks.Perm state.pendingBlocks ∨
        (state.doHandleMiss handlePkt).2.pendingBlocks.Perm
          (config.blockNumber handlePkt.address :: state.pendingBlocks)) := by
  apply state.doHandleMiss_cases handlePkt (fun missed => missed.2.block = state.block ∧
    (missed.2.pendingBlocks.Perm state.pendingBlocks ∨ missed.2.pendingBlocks.Perm
      (config.blockNumber handlePkt.address :: state.pendingBlocks)))
  · intro _written
    refine ⟨rfl, Or.inr ?_⟩
    change (List.map _ (state.mshr ++ (state.inflightWrites ++ [_]))).Perm _
    rw [← List.append_assoc, List.map_append]
    exact List.perm_append_singleton _ _
  · intro accepted next step
    cases step with
    | merged cpu simStats before after entry split same =>
        refine ⟨rfl, Or.inl ?_⟩
        have block := Mshr.merge_block config entry (Mshr.ofTagLookup handlePkt state.currentTime)
          same
        unfold pendingBlocks
        dsimp only
        rw [split, List.map_append, List.map_append, List.map_cons, block, ← List.map_cons,
          ← List.map_append, ← List.map_append]
    | refused cpu => exact ⟨rfl, Or.inl (List.Perm.refl _)⟩
    | forwarded cpu simStats lowerLevel fresh room sent =>
        refine ⟨rfl, ?_⟩
        unfold pendingBlocks
        dsimp only
        split
        · refine Or.inr ?_
          rw [List.append_assoc, List.map_append, List.singleton_append, List.map_cons,
            List.map_append]
          exact List.perm_middle
        · exact Or.inl (List.Perm.refl _)

theorem finishPacket_pending (state next : State config Module) (packet : Response)
    (ran : state.finishPacket packet = some next) :
    next.block = state.block ∧ next.pendingBlocks.Perm state.pendingBlocks := by
  obtain ⟨before, entry, after, promise, split, moved⟩ := state.finishPacket_effect next packet ran
  have kept := state.finishPacket_withMshr next packet ran
  have writes : next.inflightWrites = state.inflightWrites := by
    rw [kept]
    rfl
  have blocks : next.block = state.block := by
    rw [kept]
    rfl
  refine ⟨blocks, ?_⟩
  unfold pendingBlocks
  rw [writes, List.map_append, List.map_append]
  apply List.Perm.append_right
  apply (moved.map (Mshr.block config)).trans
  rw [split, List.map_append, List.map_append, List.map_cons, List.map_cons]
  exact List.Perm.refl _

theorem finishEach_pending (state next : State config Module) (packets : List Response)
    (ran : packets.foldlM State.finishPacket state = some next) :
    next.block = state.block ∧ next.pendingBlocks.Perm state.pendingBlocks := by
  induction packets generalizing state with
  | nil =>
      cases ran
      exact ⟨rfl, List.Perm.refl _⟩
  | cons packet rest ih =>
      obtain ⟨middle, first, others⟩ := Option.bind_eq_some_iff.mp ran
      obtain ⟨block, pending⟩ := state.finishPacket_pending middle packet first
      obtain ⟨laterBlock, laterPending⟩ := ih middle others
      exact ⟨laterBlock.trans block, laterPending.trans pending⟩

end State

/-- A block is only in its own set, at most once, and nowhere while a fill of
it is pending. -/
structure Residency {config : Config} {Module : Type} (state : State config Module)
    (block : BitVec 64) (pending : List (BitVec 64)) : Prop where
  placed : ∀ set way, state.Resident set way block → set = config.setOf block
  once : state.ResidentOnce block
  absent : block ∈ pending → ∀ set way, ¬state.Resident set way block

namespace Residency

variable {config : Config} {Module : Type} {state next : State config Module}
  {block : BitVec 64} {pending others : List (BitVec 64)}

theorem shrink (residency : Residency state block pending)
    (copies : ∀ set way, next.Resident set way block → state.Resident set way block)
    (fewer : block ∈ others → block ∈ pending) : Residency next block others := by
  constructor
  · intro set way resident
    exact residency.placed set way (copies set way resident)
  · intro set way other first second
    exact residency.once set way other (copies set way first) (copies set other second)
  · intro due set way resident
    exact residency.absent (fewer due) set way (copies set way resident)

theorem sameBlocks (residency : Residency state block pending) (same : next.block = state.block)
    (fewer : block ∈ others → block ∈ pending) : Residency next block others := by
  apply residency.shrink ?_ fewer
  intro set way resident
  rw [State.Resident, State.blockAt, same] at resident
  exact resident

theorem reorder (residency : Residency state block pending) (same : pending.Perm others) :
    Residency state block others :=
  residency.sameBlocks rfl (fun due => same.mem_iff.mpr due)

/-! ### Fills -/

theorem fill {entry : Mshr} (residency : Residency state block (entry.block config :: pending))
    (alone : (entry.block config :: pending).count block ≤ 1)
    (effect : FillEffect state entry true next) : Residency next block pending := by
  have later : block ∈ pending → block ∈ entry.block config :: pending :=
    List.mem_cons_of_mem _
  rcases State.filled_block effect with same | ⟨way, metadata, within, same⟩
  · exact residency.sameBlocks same later
  · have copies := State.resident_set2 entry.address way within (entry.fillBlock metadata) same
    by_cases installed : entry.block config = block
    · have here : ∀ set other, next.Resident set other block →
          set = config.getSetIndex entry.address ∧ other = way := by
        intro set other resident
        rcases copies set other block resident with ⟨placed, _valid, _named⟩ | ⟨older, _elsewhere⟩
        · exact placed
        · exact absurd older (residency.absent (installed ▸ List.mem_cons_self) set other)
      constructor
      · intro set other resident
        rw [(here set other resident).1, Config.getSetIndex_eq, ← installed]
        rfl
      · intro set first second firstResident secondResident
        rw [(here set first firstResident).2, (here set second secondResident).2]
      · intro due
        have twice := List.count_pos_iff.mpr due
        rw [installed, List.count_cons_self] at alone
        omega
    · apply residency.shrink ?_ later
      intro set other resident
      rcases copies set other block resident with ⟨_placed, _valid, named⟩ | ⟨older, _elsewhere⟩
      · exact absurd named installed
      · exact older

theorem refuse {entry : Mshr} (residency : Residency state block pending)
    (effect : FillEffect state entry false next) : Residency next block pending := by
  cases effect with
  | refused cpu modules way within valid dirty full => exact residency.sameBlocks rfl id

theorem fillSpan (hooks : Modules Module) (queue : List Mshr) (count : Nat)
    (residency : Residency state block (queue.map (Mshr.block config) ++ pending))
    (alone : (queue.map (Mshr.block config) ++ pending).count block ≤ 1)
    (ran : State.fillSpan hooks state queue = some (count, next)) :
    Residency next block ((queue.drop count).map (Mshr.block config) ++ pending) := by
  induction queue generalizing state count with
  | nil =>
      cases ran
      exact residency
  | cons entry rest ih =>
      obtain ⟨⟨filled, middle⟩, fills, remaining⟩ := Option.bind_eq_some_iff.mp ran
      have effect := State.handleFill_effect hooks state middle entry filled fills
      rw [List.map_cons, List.cons_append] at residency alone
      cases filled with
      | false =>
          cases remaining
          exact residency.refuse effect
      | true =>
          obtain ⟨⟨more, last⟩, fillsRest, same⟩ := Option.map_eq_some_iff.mp remaining
          cases same
          have fewer := List.count_le_count_cons (a := block) (b := entry.block config)
            (l := rest.map (Mshr.block config) ++ pending)
          exact ih more (residency.fill alone effect) (Nat.le_trans fewer alone) fillsRest

theorem fillQueue (hooks : Modules Module) (queue : List Mshr) (bandwidth count : Nat)
    (condition : Mshr → Bool)
    (residency : Residency state block (queue.map (Mshr.block config) ++ pending))
    (alone : (queue.map (Mshr.block config) ++ pending).count block ≤ 1)
    (ran : State.fillSpan hooks state (Queue.span bandwidth condition queue) = some (count, next))
    (within : count ≤ (Queue.span bandwidth condition queue).length) :
    Residency next block ((queue.drop count).map (Mshr.block config) ++ pending) := by
  have split := Queue.span_append_beyond bandwidth condition queue
  rw [← split, List.map_append, List.append_assoc] at residency alone
  have filled := residency.fillSpan hooks _ count alone ran
  rw [← List.append_assoc, ← List.map_append, ← List.drop_append_of_le_length within, split]
    at filled
  exact filled

/-! ### Tag checks -/

theorem hit {handlePkt : TagLookup} {accepted : Bool} (residency : Residency state block pending)
    (effect : HitEffect state handlePkt accepted next) : Residency next block pending :=
  residency.shrink (fun set way => (State.checked_resident effect set way block).mp) id

/-! ### Misses -/

theorem miss (handlePkt : TagLookup)
    (residency : Residency state block state.pendingBlocks)
    (unknown : state.Unknown handlePkt) :
    (state.doHandleMiss handlePkt).2.block = state.block ∧
      Residency (state.doHandleMiss handlePkt).2 block
        (state.doHandleMiss handlePkt).2.pendingBlocks := by
  obtain ⟨same, recorded⟩ := State.doHandleMiss_pending state handlePkt
  refine ⟨same, ?_⟩
  rcases recorded with kept | added
  · exact residency.sameBlocks same (fun due => kept.mem_iff.mp due)
  · by_cases named : config.blockNumber handlePkt.address = block
    · have nowhere : ∀ set way, ¬state.Resident set way block := by
        intro set way resident
        have placed := residency.placed set way resident
        rw [← named, ← Config.getSetIndex_eq] at placed
        rw [placed, ← named] at resident
        exact unknown way resident
      have vacuous : Residency state block (block :: state.pendingBlocks) :=
        { residency with absent := fun _due => nowhere }
      exact vacuous.sameBlocks same (fun _due => List.mem_cons_self)
    · apply residency.sameBlocks same
      intro due
      rcases List.mem_cons.mp (added.mem_iff.mp due) with newest | older
      · exact absurd newest.symm named
      · exact older

end Residency

namespace Pipeline

variable {config : OperateConfig} {Module : Type}

/-- What a step must start with: at most one record of the block. -/
def RecordedOnce (pipeline : Pipeline config Module) (block : BitVec 64) : Prop :=
  pipeline.pendingBlocks.count block ≤ 1

instance (pipeline : Pipeline config Module) (block : BitVec 64) :
    Decidable (pipeline.RecordedOnce block) :=
  inferInstanceAs (Decidable (_ ≤ 1))

def Resides (pipeline : Pipeline config Module) (block : BitVec 64) : Prop :=
  Residency pipeline.toState block pipeline.pendingBlocks

variable {block : BitVec 64}

theorem fillMshrs_resides (hooks : Modules Module) (pipeline next : Pipeline config Module)
    (filled : Nat) (resides : pipeline.Resides block) (alone : pipeline.RecordedOnce block)
    (ran : pipeline.fillMshrs hooks = some (filled, next)) :
    next.Resides block ∧ next.RecordedOnce block := by
  obtain ⟨⟨count, last⟩, fills, same⟩ := Option.map_eq_some_iff.mp ran
  cases same
  obtain ⟨⟨keptMshr, keptWrites⟩, within⟩ := State.fillSpan_records hooks _ last _ _ fills
  have before : pipeline.pendingBlocks = pipeline.mshr.map (Mshr.block config.toConfig) ++
      pipeline.inflightWrites.map (Mshr.block config.toConfig) := List.map_append
  have after : ((last.mshr.drop filled) ++ last.inflightWrites).map (Mshr.block config.toConfig) =
      (pipeline.mshr.drop filled).map (Mshr.block config.toConfig) ++
        pipeline.inflightWrites.map (Mshr.block config.toConfig) := by
    rw [keptMshr, keptWrites, List.map_append]
  unfold Resides at resides
  unfold RecordedOnce at alone
  rw [before] at resides alone
  have kept := resides.fillQueue hooks pipeline.mshr _ filled _ alone fills within
  constructor
  · have reached : Residency { last with mshr := last.mshr.drop filled } block
        ((last.mshr.drop filled ++ last.inflightWrites).map (Mshr.block config.toConfig)) := by
      rw [after]
      exact kept.sameBlocks rfl id
    exact reached
  · have fewer := ((List.drop_sublist filled pipeline.mshr).map
      (Mshr.block config.toConfig)).append_right
        (pipeline.inflightWrites.map (Mshr.block config.toConfig))
    have counted : (((last.mshr.drop filled) ++ last.inflightWrites).map
        (Mshr.block config.toConfig)).count block ≤ 1 := by
      rw [after]
      exact Nat.le_trans (fewer.count_le block) alone
    exact counted

theorem fillWrites_resides (hooks : Modules Module) (pipeline next : Pipeline config Module)
    (bandwidth : Nat) (resides : pipeline.Resides block) (alone : pipeline.RecordedOnce block)
    (ran : pipeline.fillWrites hooks bandwidth = some next) : next.Resides block := by
  obtain ⟨⟨count, last⟩, fills, same⟩ := Option.map_eq_some_iff.mp ran
  subst same
  obtain ⟨⟨keptMshr, keptWrites⟩, within⟩ := State.fillSpan_records hooks _ last _ _ fills
  have before : pipeline.pendingBlocks.Perm
      (pipeline.inflightWrites.map (Mshr.block config.toConfig) ++
        pipeline.mshr.map (Mshr.block config.toConfig)) := by
    unfold State.pendingBlocks
    rw [List.map_append]
    exact List.perm_append_comm
  have after : (last.mshr ++ (last.inflightWrites.drop count)).map (Mshr.block config.toConfig) =
      pipeline.mshr.map (Mshr.block config.toConfig) ++
        (pipeline.inflightWrites.drop count).map (Mshr.block config.toConfig) := by
    rw [keptMshr, keptWrites, List.map_append]
  have ordered := resides.reorder before
  unfold RecordedOnce at alone
  rw [before.count_eq] at alone
  have kept := ordered.fillQueue hooks pipeline.inflightWrites bandwidth count _ alone fills within
  have reached : Residency { last with inflightWrites := last.inflightWrites.drop count } block
      ((last.mshr ++ (last.inflightWrites.drop count)).map (Mshr.block config.toConfig)) := by
    rw [after]
    exact (kept.reorder List.perm_append_comm).sameBlocks rfl id
  exact reached

theorem performFills_resides (hooks : Modules Module) (pipeline next : Pipeline config Module)
    (resides : pipeline.Resides block) (alone : pipeline.RecordedOnce block)
    (ran : pipeline.performFills hooks = some next) : next.Resides block := by
  obtain ⟨⟨filled, middle⟩, mshrs, writes⟩ := Option.bind_eq_some_iff.mp ran
  obtain ⟨kept, still⟩ := pipeline.fillMshrs_resides hooks middle filled resides alone mshrs
  exact middle.fillWrites_resides hooks next _ kept still writes

theorem performTagChecks_resides (hooks : Modules Module) (pipeline : Pipeline config Module)
    (resides : pipeline.Resides block) : (pipeline.performTagChecks hooks).Resides block := by
  unfold performTagChecks
  dsimp only
  generalize Queue.span config.maxTag _ pipeline.inflightTagCheck = checks
  have checked : Residency (Queue.partition (State.tryHit hooks) pipeline.toState checks).2 block
      (Queue.partition (State.tryHit hooks) pipeline.toState checks).2.pendingBlocks := by
    apply Queue.partition_invariant (State.tryHit hooks)
      (fun state => Residency state block state.pendingBlocks) checks ?_ pipeline.toState resides
    intro state handlePkt _member before
    have effect := State.tryHit_effect hooks state handlePkt
    have kept := before.hit effect
    rw [← State.checked_pending effect] at kept
    exact kept
  have unknown := Queue.partition_refused (State.tryHit hooks) State.Unknown
    (fun state handlePkt missed => by
      have effect := State.tryHit_effect hooks state handlePkt
      rw [missed] at effect
      exact State.missed_unknown effect)
    (fun state handlePkt other absent way => by
      rw [State.checked_resident (State.tryHit_effect hooks state other)]
      exact absent way) pipeline.toState checks
  revert checked unknown
  generalize Queue.partition (State.tryHit hooks) pipeline.toState checks = hits
  intro checked unknown
  have missed := Queue.partition_invariant State.doHandleMiss
    (fun state => state.block = hits.2.block ∧ Residency state block state.pendingBlocks) hits.1.2
    (fun state handlePkt member before => by
      have absent : state.Unknown handlePkt := by
        have earlier := unknown handlePkt member
        unfold State.Unknown State.Resident State.blockAt at earlier ⊢
        rw [before.1]
        exact earlier
      obtain ⟨same, kept⟩ := Residency.miss handlePkt before.2 absent
      exact ⟨same.trans before.1, kept⟩) hits.2 ⟨rfl, checked⟩
  exact missed.2

theorem Resides.same {pipeline next : Pipeline config Module} (resides : pipeline.Resides block)
    (blocks : next.block = pipeline.block) (mshr : next.mshr = pipeline.mshr)
    (writes : next.inflightWrites = pipeline.inflightWrites) : next.Resides block := by
  have pending : next.pendingBlocks = pipeline.pendingBlocks := by
    unfold State.pendingBlocks
    rw [mshr, writes]
  unfold Resides
  rw [pending]
  exact resides.sameBlocks blocks id

theorem finishPackets_resides (pipeline next : Pipeline config Module)
    (resides : pipeline.Resides block) (alone : pipeline.RecordedOnce block)
    (ran : pipeline.finishPackets = some next) :
    next.Resides block ∧ next.RecordedOnce block := by
  obtain ⟨state, finished, same⟩ := Option.map_eq_some_iff.mp ran
  obtain ⟨blocks, pending⟩ := State.finishEach_pending _ state _ finished
  subst same
  constructor
  · have kept := (resides.reorder pending.symm).sameBlocks blocks id
    exact kept.sameBlocks rfl id
  · have counted := pending.count_eq block
    unfold RecordedOnce at alone
    rw [← counted] at alone
    exact alone

theorem fillStart_resides (pipeline ready : Pipeline config Module)
    (resides : pipeline.Resides block) (alone : pipeline.RecordedOnce block)
    (ran : pipeline.fillStart = some ready) : ready.Resides block ∧ ready.RecordedOnce block := by
  obtain ⟨finished, finishes, same⟩ := Option.map_eq_some_iff.mp ran
  obtain ⟨upperLevels, checked⟩ := pipeline.checkCollisions_shape
  rw [checked] at finishes
  obtain ⟨afterReturns, still⟩ := finishPackets_resides { pipeline with upperLevels } finished
    (resides.same rfl rfl rfl) alone finishes
  obtain ⟨stash, lookups, translate, translated⟩ := finished.finishTranslations_shape
  rw [← same, translated]
  exact ⟨afterReturns.same rfl rfl rfl, still⟩

theorem checkTags_resides (hooks : CycleModules Module) (served next : Pipeline config Module)
    (resides : served.Resides block)
    (ran : served.initiateTagChecks.pipeline.checkTags hooks = some next) : next.Resides block := by
  obtain ⟨issued, issues, done⟩ := Option.map_eq_some_iff.mp ran
  obtain ⟨uppers, order, internalPq, stashed, initiated, taken⟩ := served.initiateTagChecks_shape
  rw [taken] at issues
  obtain ⟨lookedUp, waits, channel, same⟩ := issueTranslations_shape _ issued issues
  have afterIssue : issued.stashUntranslated.Resides block := by
    rw [same]
    exact resides.same rfl rfl rfl
  have afterChecks := issued.stashUntranslated.performTagChecks_resides hooks.toModules afterIssue
  obtain ⟨added, stats, modules, _issued, cycled⟩ :=
    (issued.stashUntranslated.performTagChecks hooks.toModules).prefetcherCycleOperate_shape hooks
  rw [← done, cycled]
  exact afterChecks.same rfl rfl rfl

theorem operate_resides (hooks : CycleModules Module) (pipeline next : Pipeline config Module)
    (resides : pipeline.Resides block) (alone : pipeline.RecordedOnce block)
    (ran : operate hooks pipeline = some next) : next.Resides block := by
  obtain ⟨ready, served, starts, fills, checks⟩ := operate_parts hooks pipeline next ran
  obtain ⟨kept, still⟩ := pipeline.fillStart_resides ready resides alone starts
  have afterFills := ready.performFills_resides hooks.toModules served kept still fills
  exact checkTags_resides hooks served next afterFills checks

theorem invalidateEntry_resides (pipeline : Pipeline config Module) (invalAddr : Address)
    (resides : pipeline.Resides block) : (pipeline.invalidateEntry invalAddr).Resides block := by
  unfold invalidateEntry
  dsimp only
  split
  · exact resides
  · rename_i found
    apply Residency.shrink resides ?_ id
    intro set way resident
    have within := Nat.lt_of_le_of_ne (pipeline.findWay_le _ _) found
    rcases State.resident_set2 invalAddr _ within _ rfl set way block resident with
      ⟨_placed, valid, _named⟩ | ⟨older, _elsewhere⟩
    · cases valid
    · exact older

theorem step_resides (hooks : CycleModules Module) (pipeline next : Pipeline config Module)
    (label : Step Module) (resides : pipeline.Resides block) (alone : pipeline.RecordedOnce block)
    (stepped : pipeline.step hooks label = some next) : next.Resides block := by
  cases label with
  | operate =>
      exact operate_resides hooks
        { pipeline with currentTime := pipeline.currentTime + config.clockPeriod } next
        (resides.same rfl rfl rfl) alone stepped
  | upperLevels channels =>
      cases stepped
      exact resides.same rfl rfl rfl
  | lowerQueues rq pq wq =>
      cases stepped
      exact resides.same rfl rfl rfl
  | answer response =>
      cases stepped
      exact resides.same rfl rfl rfl
  | translations channel =>
      cases stepped
      exact resides.same rfl rfl rfl
  | branchOperate modules calls =>
      obtain ⟨added, simStats, _issued, asked⟩ := pipeline.toState.prefetchLines_shape calls
      cases stepped
      rw [asked]
      exact resides.same rfl rfl rfl
  | beginPhase warmup =>
      cases stepped
      exact resides.same rfl rfl rfl
  | invalidateEntry invalAddr =>
      cases stepped
      exact pipeline.invalidateEntry_resides invalAddr resides

theorem resides_of_idle {pipeline : Pipeline config Module} (idle : Idle pipeline)
    (block : BitVec 64) : pipeline.Resides block := by
  have empty : ∀ set way, ¬pipeline.Resident set way block := by
    intro set way resident
    have valid := resident.1
    rw [State.blockAt, idle.block] at valid
    change ((CArray.fill2 _ _ (default : CacheBlock)).at2 set way).valid = true at valid
    rw [CArray.at2_fill2] at valid
    cases valid
  constructor
  · intro set way resident
    exact absurd resident (empty set way)
  · intro set way other resident
    exact absurd resident (empty set way)
  · intro _due
    exact empty

/-- The runs in which every step starts with at most one record of a block. -/
def recordingOnce (hooks : CycleModules Module) (block : BitVec 64) :
    Machine (Pipeline config Module) (Step Module) :=
  (cycles hooks).restrict (fun pipeline _label => pipeline.RecordedOnce block)

theorem recordingOnce_resides (hooks : CycleModules Module) (block : BitVec 64)
    (start : Pipeline config Module) (idle : Idle start) (labels : List (Step Module))
    (reached : Pipeline config Module)
    (ran : (recordingOnce hooks block).run start labels = some reached) :
    reached.Resides block := by
  apply (recordingOnce hooks block).run_invariant (fun pipeline => pipeline.Resides block) ?_
    labels start reached (resides_of_idle idle block) ran
  intro pipeline label next before stepped
  obtain ⟨alone, moved⟩ := ((cycles hooks).restrict_step_iff _ _ _ _).mp stepped
  exact step_resides hooks pipeline next label before alone moved

/-- In such a run no set ever holds the block twice. -/
theorem recordingOnce_residentOnce (hooks : CycleModules Module) (block : BitVec 64)
    (start : Pipeline config Module) (idle : Idle start) (labels : List (Step Module))
    (reached : Pipeline config Module)
    (ran : (recordingOnce hooks block).run start labels = some reached) :
    reached.ResidentOnce block :=
  (recordingOnce_resides hooks block start idle labels reached ran).once

end Pipeline

/-! ### A write and a miss of one block -/

/-- The write waits to be filled when the load is looked up. -/
def writeThenLoad : List (Step Unit) :=
  [.upperLevels (requestsAbove [] [{ address := 0x40, type := .write, responseRequested := false }]),
    .operate, .upperLevels (requestsAbove [{ address := 0x40 }] []), .operate, .operate,
    .answer { address := 0x40 }, .operate, .operate, .operate, .operate]

private theorem writeThenLoad_twice :
    ((cycles silentCycle).run idleCache writeThenLoad).any (fun reached =>
      decide (reached.Resident 0 0 1 ∧ reached.Resident 0 1 1)) = true := by
  decide +kernel

private theorem missAndAnswer_recordsOnce :
    ((Pipeline.recordingOnce silentCycle 1).run idleCache missAndAnswer).isSome = true := by
  decide +kernel

theorem recordingOnce_residentOnce_miss :
    ∃ reached, (Pipeline.recordingOnce silentCycle 1).run idleCache missAndAnswer = some reached ∧
      reached.ResidentOnce 1 := by
  obtain ⟨reached, ran⟩ := Option.isSome_iff_exists.mp missAndAnswer_recordsOnce
  exact ⟨reached, ran, Pipeline.recordingOnce_residentOnce silentCycle 1 idleCache idleCache_idle
    missAndAnswer reached ran⟩

/-- A write from above is filled beside a miss of its block that is in flight. -/
theorem writeThenLoad_not_residentOnce :
    ¬∀ labels reached, (cycles silentCycle).run idleCache labels = some reached →
      ∀ block, reached.ResidentOnce block := by
  intro once
  obtain ⟨reached, ran, twice⟩ := (Option.any_eq_true _ _).mp writeThenLoad_twice
  obtain ⟨first, second⟩ := of_decide_eq_true twice
  have same := once writeThenLoad reached ran 1 0 0 1 first second
  cases same

end ChampSim.Cache

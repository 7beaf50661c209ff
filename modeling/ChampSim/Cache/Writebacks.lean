/-
What becomes of a dirty block.

A dirty block leaves its way through a fill that has sent it to the level
below. When the level below refuses it, the block stays, and the record of the
fill waits first in its queue.
-/

import ChampSim.Cache.Residency

set_option autoImplicit false

namespace ChampSim.Cache

open Transition

/-- A block whose address and data are those of `old`, and which is dirty. -/
structure Keeps (old block : CacheBlock) : Prop where
  valid : block.valid = true
  dirty : block.dirty = true
  address : block.address = old.address
  data : block.data = old.data

def writebacksOf (old : CacheBlock) (packets : List Request) : List Request :=
  packets.filter (fun packet =>
    decide (packet.type = .write ∧ packet.address = old.address ∧ packet.data = old.data))

def evictedPackets (fillMshr : Mshr) (victim : CacheBlock) : List Request :=
  if victim.valid = true ∧ victim.dirty = true then
    [{ State.writebackPacket fillMshr victim with forwardChecked := false }]
  else []

theorem writebacksOf_append (old : CacheBlock) (first second : List Request) :
    writebacksOf old (first ++ second) = writebacksOf old first ++ writebacksOf old second :=
  List.filter_append first second

theorem writebacksOf_evicted_same {old victim : CacheBlock} (fillMshr : Mshr)
    (keeps : Keeps old victim) : (writebacksOf old (evictedPackets fillMshr victim)).length = 1 := by
  unfold evictedPackets
  rw [if_pos ⟨keeps.valid, keeps.dirty⟩]
  simp [writebacksOf, State.writebackPacket, keeps.address, keeps.data]

theorem writebacksOf_evicted_other (config : Config) {old victim : CacheBlock} (fillMshr : Mshr)
    (other : victim.valid = true →
      config.blockNumber victim.address ≠ config.blockNumber old.address) :
    writebacksOf old (evictedPackets fillMshr victim) = [] := by
  unfold evictedPackets
  split
  · rename_i evicts
    unfold writebacksOf
    rw [List.filter_eq_nil_iff]
    intro packet member
    rw [List.mem_singleton.mp member]
    intro matched
    exact other evicts.1 (congrArg config.blockNumber (of_decide_eq_true matched).2.1)
  · rfl

namespace State

variable {config : Config} {Module : Type} {state next : State config Module}

theorem fillEffect_writes {entry : Mshr} {filled : Bool}
    (effect : FillEffect state entry filled next) :
    next.block = state.block ∧ next.lowerLevel.wq = state.lowerLevel.wq ∨
      ∃ way metadata, way < config.numWay ∧
        next.block = state.block.set2 (config.getSetIndex entry.address : Nat) way
          (entry.fillBlock metadata) ∧
        next.lowerLevel.wq = state.lowerLevel.wq ++
          evictedPackets entry (state.blockAt (config.getSetIndex entry.address) way) := by
  cases effect with
  | refused cpu modules way within valid dirty full => exact Or.inl ⟨rfl, rfl⟩
  | bypassed cpu added simStats modules metadata issued readable => exact Or.inl ⟨rfl, rfl⟩
  | installed cpu added simStats modules metadata way lowerLevel issued within written =>
      refine Or.inr ⟨way, metadata, within, rfl, ?_⟩
      unfold WrittenBack at written
      unfold evictedPackets
      dsimp only
      split
      · rename_i evicts
        rw [if_pos evicts] at written
        rw [addWq_appends written]
      · rename_i clean
        rw [if_neg clean] at written
        rw [written, List.append_nil]

end State

/-! ### Fills -/

/-- A dirty block is in its way, or it was sent below since `queue`. -/
def Saved {config : Config} {Module : Type} (old : CacheBlock) (set way : Nat)
    (queue : List Request) (state : State config Module) : Prop :=
  ∃ written, state.lowerLevel.wq = queue ++ written ∧
    (Keeps old (state.blockAt set way) ∨ writebacksOf old written ≠ [])

/-- The only copy of a block is in its way and not sent, or no copy is left and
it was sent once. -/
def SavedOnce {config : Config} {Module : Type} (old : CacheBlock) (set way : Nat)
    (queue : List Request) (state : State config Module) : Prop :=
  ∃ written, state.lowerLevel.wq = queue ++ written ∧
    (Keeps old (state.blockAt set way) ∧ writebacksOf old written = [] ∧
        (∀ otherSet otherWay,
          state.Resident otherSet otherWay (config.blockNumber old.address) →
            otherSet = set ∧ otherWay = way) ∨
      (writebacksOf old written).length = 1 ∧
        ∀ otherSet otherWay, ¬state.Resident otherSet otherWay (config.blockNumber old.address))

section Fills

variable {config : Config} {Module : Type} {state next : State config Module} {old : CacheBlock}
  {set way : Nat} {queue : List Request} {entry : Mshr} {filled : Bool}

theorem blockAt_unfilled (filledWay : Nat) (metadata : BitVec 32)
    (within : filledWay < config.numWay)
    (same : next.block = state.block.set2 (config.getSetIndex entry.address : Nat) filledWay
      (entry.fillBlock metadata))
    (elsewhere : ¬(set = config.getSetIndex entry.address ∧ way = filledWay)) :
    next.blockAt set way = state.blockAt set way := by
  unfold State.blockAt
  rw [same, CArray.at2_set2 _ _ _ _ _ _ (config.getSetIndex_lt entry.address) within,
    if_neg elsewhere]

theorem Saved.fill (saved : Saved old set way queue state)
    (effect : FillEffect state entry filled next) : Saved old set way queue next := by
  obtain ⟨written, sent, kept⟩ := saved
  rcases State.fillEffect_writes effect with ⟨same, wq⟩ | ⟨filledWay, metadata, within, same, wq⟩
  · refine ⟨written, wq.trans sent, ?_⟩
    rw [State.blockAt, same]
    exact kept
  · refine ⟨written ++ evictedPackets entry
      (state.blockAt (config.getSetIndex entry.address) filledWay), ?_, ?_⟩
    · rw [wq, sent, List.append_assoc]
    · rw [writebacksOf_append]
      rcases kept with keeps | written
      · by_cases here : set = config.getSetIndex entry.address ∧ way = filledWay
        · obtain ⟨sameSet, sameWay⟩ := here
          subst sameSet
          subst sameWay
          have once := writebacksOf_evicted_same entry keeps
          refine Or.inr (fun none => ?_)
          rw [(List.append_eq_nil_iff.mp none).2] at once
          cases once
        · rw [blockAt_unfilled filledWay metadata within same here]
          exact Or.inl keeps
      · exact Or.inr (fun none => written (List.append_eq_nil_iff.mp none).1)

theorem SavedOnce.fill (saved : SavedOnce old set way queue state)
    (other : entry.block config ≠ config.blockNumber old.address)
    (effect : FillEffect state entry filled next) : SavedOnce old set way queue next := by
  obtain ⟨written, sent, kept⟩ := saved
  rcases State.fillEffect_writes effect with ⟨same, wq⟩ | ⟨filledWay, metadata, within, same, wq⟩
  · refine ⟨written, wq.trans sent, ?_⟩
    unfold State.Resident State.blockAt at kept ⊢
    rw [same]
    exact kept
  · have copies := State.resident_set2 entry.address filledWay within (entry.fillBlock metadata) same
    have older : ∀ otherSet otherWay,
        next.Resident otherSet otherWay (config.blockNumber old.address) →
          state.Resident otherSet otherWay (config.blockNumber old.address) ∧
            ¬(otherSet = config.getSetIndex entry.address ∧ otherWay = filledWay) := by
      intro otherSet otherWay resident
      rcases copies otherSet otherWay _ resident with ⟨_placed, _valid, named⟩ | before
      · exact absurd named other
      · exact before
    refine ⟨written ++ evictedPackets entry
      (state.blockAt (config.getSetIndex entry.address) filledWay), ?_, ?_⟩
    · rw [wq, sent, List.append_assoc]
    · rw [writebacksOf_append]
      rcases kept with ⟨keeps, none, only⟩ | ⟨once, absent⟩
      · by_cases here : set = config.getSetIndex entry.address ∧ way = filledWay
        · refine Or.inr ⟨?_, ?_⟩
          · rw [none, ← here.1, ← here.2]
            exact writebacksOf_evicted_same entry keeps
          · intro otherSet otherWay resident
            obtain ⟨before, elsewhere⟩ := older otherSet otherWay resident
            obtain ⟨sameSet, sameWay⟩ := only otherSet otherWay before
            rw [sameSet, sameWay] at elsewhere
            exact elsewhere here
        · refine Or.inl ⟨?_, ?_, ?_⟩
          · rw [blockAt_unfilled filledWay metadata within same here]
            exact keeps
          · rw [none, writebacksOf_evicted_other config entry]
            · rfl
            · intro valid named
              obtain ⟨sameSet, sameWay⟩ := only _ _ ⟨valid, named⟩
              exact here ⟨sameSet.symm, sameWay.symm⟩
          · intro otherSet otherWay resident
            exact only otherSet otherWay (older otherSet otherWay resident).1
      · refine Or.inr ⟨?_, ?_⟩
        · rw [writebacksOf_evicted_other config entry, List.append_nil]
          · exact once
          · intro valid named
            exact absent _ _ ⟨valid, named⟩
        · intro otherSet otherWay resident
          exact absent otherSet otherWay (older otherSet otherWay resident).1

end Fills

/-! ### What is kept outside of the fills -/

/-- No way loses its block or its dirty bit, and nothing is written below. -/
structure KeepsBlocks {config : Config} {Module : Type} (state next : State config Module) :
    Prop where
  keeps : ∀ set way old, Keeps old (state.blockAt set way) → Keeps old (next.blockAt set way)
  resident : ∀ set way block, next.Resident set way block → state.Resident set way block
  wq : next.lowerLevel.wq = state.lowerLevel.wq
  wqSize : next.lowerLevel.wqSize = state.lowerLevel.wqSize

namespace KeepsBlocks

variable {config : Config} {Module : Type} {state next : State config Module}

theorem of_eq (block : next.block = state.block) (wq : next.lowerLevel.wq = state.lowerLevel.wq)
    (wqSize : next.lowerLevel.wqSize = state.lowerLevel.wqSize) : KeepsBlocks state next := by
  refine ⟨?_, ?_, wq, wqSize⟩
  · intro set way old keeps
    rw [State.blockAt, block]
    exact keeps
  · intro set way number resident
    unfold State.Resident State.blockAt at *
    rw [block] at resident
    exact resident

theorem hit {handlePkt : TagLookup} {accepted : Bool}
    (effect : HitEffect state handlePkt accepted next) : KeepsBlocks state next := by
  have resident := fun set way block => (State.checked_resident effect set way block).mp
  cases effect with
  | missed cpu added simStats modules issued absent => exact ⟨fun _ _ _ => id, resident, rfl, rfl⟩
  | hit cpu added simStats modules found prefetch metadata issued within holds =>
      refine ⟨?_, resident, rfl, rfl⟩
      intro set way old keeps
      unfold State.blockAt
      rw [CArray.at2_set2 _ _ _ _ _ _ (config.getSetIndex_lt handlePkt.address) within]
      split
      · rename_i here
        rw [here.1, here.2] at keeps
        exact ⟨keeps.valid, Bool.or_inl keeps.dirty, keeps.address, keeps.data⟩
      · exact keeps

theorem miss (state : State config Module) (handlePkt : TagLookup) :
    KeepsBlocks state (state.doHandleMiss handlePkt).2 := by
  apply state.doHandleMiss_cases handlePkt (fun missed => KeepsBlocks state missed.2)
  · intro _written
    exact of_eq rfl rfl rfl
  · intro accepted next step
    cases step with
    | merged => exact of_eq rfl rfl rfl
    | refused => exact of_eq rfl rfl rfl
    | forwarded cpu simStats lowerLevel fresh room sent =>
        have same : lowerLevel.wq = state.lowerLevel.wq ∧
            lowerLevel.wqSize = state.lowerLevel.wqSize := by
          unfold State.sendMiss at sent
          split at sent
          · rw [addRq_appends sent]
            exact ⟨rfl, rfl⟩
          · rw [addPq_appends sent]
            exact ⟨rfl, rfl⟩
        exact of_eq rfl same.1 same.2

end KeepsBlocks

section Kept

variable {config : Config} {Module : Type} {state next : State config Module} {old : CacheBlock}
  {set way : Nat} {queue : List Request}

theorem Saved.kept (saved : Saved old set way queue state) (kept : KeepsBlocks state next) :
    Saved old set way queue next := by
  obtain ⟨written, sent, saves⟩ := saved
  exact ⟨written, kept.wq.trans sent, saves.imp_left (kept.keeps set way old)⟩

theorem SavedOnce.kept (saved : SavedOnce old set way queue state)
    (kept : KeepsBlocks state next) : SavedOnce old set way queue next := by
  obtain ⟨written, sent, saves⟩ := saved
  refine ⟨written, kept.wq.trans sent, ?_⟩
  rcases saves with ⟨keeps, none, only⟩ | ⟨once, absent⟩
  · refine Or.inl ⟨kept.keeps set way old keeps, none, ?_⟩
    intro otherSet otherWay resident
    exact only otherSet otherWay (kept.resident otherSet otherWay _ resident)
  · refine Or.inr ⟨once, ?_⟩
    intro otherSet otherWay resident
    exact absent otherSet otherWay (kept.resident otherSet otherWay _ resident)

end Kept

/-! ### Refused fills -/

/-- A dirty block is in its way, and the level below takes no more writes. -/
def Stuck {config : Config} {Module : Type} (old : CacheBlock) (set way : Nat)
    (state : State config Module) : Prop :=
  Keeps old (state.blockAt set way) ∧ state.lowerLevel.wqSize ≤ state.lowerLevel.wq.length

theorem Stuck.fill {config : Config} {Module : Type} {state next : State config Module}
    {old : CacheBlock} {set way : Nat} {entry : Mshr} {filled : Bool}
    (stuck : Stuck old set way state) (effect : FillEffect state entry filled next) :
    Stuck old set way next := by
  cases effect with
  | refused cpu modules other within valid dirty full => exact stuck
  | bypassed cpu added simStats modules metadata issued readable => exact stuck
  | installed cpu added simStats modules metadata other lowerLevel issued within written =>
      have refuses : ∀ packet, state.lowerLevel.addWq packet = none := by
        intro packet
        unfold Channel.addWq doAddQueue
        rw [if_pos stuck.2]
        rfl
      by_cases evicts : (state.blockAt (config.getSetIndex entry.address) other).valid = true ∧
          (state.blockAt (config.getSetIndex entry.address) other).dirty = true
      · rw [State.WrittenBack, if_pos evicts, refuses] at written
        cases written
      · rw [State.WrittenBack, if_neg evicts] at written
        subst written
        refine ⟨?_, stuck.2⟩
        have elsewhere : ¬(set = config.getSetIndex entry.address ∧ way = other) := by
          rintro ⟨sameSet, sameWay⟩
          rw [sameSet, sameWay] at stuck
          exact evicts ⟨stuck.1.valid, stuck.1.dirty⟩
        unfold State.blockAt
        rw [CArray.at2_set2 _ _ _ _ _ _ (config.getSetIndex_lt entry.address) within,
          if_neg elsewhere]
        exact stuck.1

theorem Stuck.kept {config : Config} {Module : Type} {state next : State config Module}
    {old : CacheBlock} {set way : Nat} (stuck : Stuck old set way state)
    (kept : KeepsBlocks state next) : Stuck old set way next := by
  refine ⟨kept.keeps set way old stuck.1, ?_⟩
  rw [kept.wq, kept.wqSize]
  exact stuck.2

namespace State

variable {config : Config} {Module : Type}

/-- The record that a span of fills stops at, and the state that refuses it. -/
def refusedFill (hooks : Modules Module) (state : State config Module) :
    List Mshr → Option (Mshr × State config Module)
  | [] => none
  | entry :: rest =>
      (handleFill hooks state entry).bind fun (filled, next) =>
        if filled then refusedFill hooks next rest else some (entry, state)

theorem refusedFill_last (hooks : Modules Module) (state last before : State config Module)
    (queue : List Mshr) (count : Nat) (entry : Mshr)
    (ran : fillSpan hooks state queue = some (count, last))
    (refused : refusedFill hooks state queue = some (entry, before)) :
    queue[count]? = some entry ∧ handleFill hooks before entry = some (false, last) := by
  induction queue generalizing state count with
  | nil => cases refused
  | cons head rest ih =>
      obtain ⟨⟨filled, next⟩, fill, remaining⟩ := Option.bind_eq_some_iff.mp ran
      rw [refusedFill, fill] at refused
      cases filled with
      | false =>
          cases remaining
          cases refused
          exact ⟨rfl, fill⟩
      | true =>
          obtain ⟨⟨others, reached⟩, filledRest, same⟩ := Option.map_eq_some_iff.mp remaining
          cases same
          exact ih next others filledRest refused

end State

/-- A record that has at least the requesters of another, of the same block. -/
structure Mshr.Extends (config : Config) (record entry : Mshr) : Prop where
  block : record.block config = entry.block config
  dataPromise : record.dataPromise = entry.dataPromise
  toReturn : ∀ level ∈ entry.toReturn, level ∈ record.toReturn
  instrDependOnMe : ∀ instr ∈ entry.instrDependOnMe, instr ∈ record.instrDependOnMe

theorem Mshr.Extends.refl (config : Config) (entry : Mshr) : entry.Extends config entry :=
  ⟨rfl, rfl, fun _ => id, fun _ => id⟩

theorem Mshr.Extends.merge {config : Config} {record entry : Mshr}
    (extends_ : record.Extends config entry) (successor : Mshr)
    (same : record.block config = successor.block config) :
    (record.merge successor).Extends config entry where
  block := (Mshr.merge_block config record successor same).trans extends_.block
  dataPromise := extends_.dataPromise
  toReturn level member := (mem_setUnion _ _ _).mpr (Or.inl (extends_.toReturn level member))
  instrDependOnMe instr member :=
    (mem_setUnion _ _ _).mpr (Or.inl (extends_.instrDependOnMe instr member))

def Begins (config : Config) (entry : Mshr) (queue : List Mshr) : Prop :=
  ∃ record rest, queue = record :: rest ∧ record.Extends config entry

section Begins

variable {config : Config} {Module : Type} {entry : Mshr}

theorem Begins.append {queue : List Mshr} (begins : Begins config entry queue)
    (more : List Mshr) : Begins config entry (queue ++ more) := by
  obtain ⟨record, rest, split, extended⟩ := begins
  refine ⟨record, rest ++ more, ?_, extended⟩
  rw [split, List.cons_append]

theorem Begins.assign {before after : List Mshr} {old new : Mshr}
    (begins : Begins config entry (before ++ old :: after))
    (grows : old.Extends config entry → new.Extends config entry) :
    Begins config entry (before ++ new :: after) := by
  obtain ⟨record, rest, split, extended⟩ := begins
  cases before with
  | nil =>
      cases split
      exact ⟨new, after, rfl, grows extended⟩
  | cons first others =>
      obtain ⟨isFirst, _others⟩ := List.cons.inj split
      exact ⟨first, others ++ new :: after, rfl, isFirst ▸ extended⟩

theorem Begins.miss_mshr {state : State config Module} (begins : Begins config entry state.mshr)
    (handlePkt : TagLookup) : Begins config entry (state.doHandleMiss handlePkt).2.mshr := by
  apply state.doHandleMiss_cases handlePkt (fun missed => Begins config entry missed.2.mshr)
  · intro _written
    exact begins
  · intro accepted next step
    cases step with
    | merged cpu simStats before after old split same =>
        rw [split] at begins
        exact begins.assign (fun extended => extended.merge _ same)
    | refused cpu => exact begins
    | forwarded cpu simStats lowerLevel fresh room sent =>
        dsimp only
        split
        · exact begins.append _
        · exact begins

theorem Begins.miss_writes {state : State config Module}
    (begins : Begins config entry state.inflightWrites) (handlePkt : TagLookup) :
    Begins config entry (state.doHandleMiss handlePkt).2.inflightWrites := by
  apply state.doHandleMiss_cases handlePkt
    (fun missed => Begins config entry missed.2.inflightWrites)
  · intro _written
    exact begins.append _
  · intro accepted next step
    cases step with
    | merged => exact begins
    | refused => exact begins
    | forwarded => exact begins

end Begins

/-- A refused fill leaves its victim dirty in its way, and a record that
extends its own waits first, ready whenever the queue is served again. -/
structure RefusalKept {config : OperateConfig} {Module : Type} (hooks : Modules Module)
    (before : State config.toConfig Module) (entry : Mshr) (next : Pipeline config Module)
    (queue : List Mshr) : Prop where
  unchanged : ∃ cpu modules,
    State.handleFill hooks before entry = some (false, { before with cpu, modules })
  victim : ∃ way < config.numWay,
    before.lowerLevel.addWq (State.writebackPacket entry
      (before.blockAt (config.getSetIndex entry.address) way)) = none ∧
    Keeps (before.blockAt (config.getSetIndex entry.address) way)
      (before.blockAt (config.getSetIndex entry.address) way) ∧
    Keeps (before.blockAt (config.getSetIndex entry.address) way)
      (next.blockAt (config.getSetIndex entry.address) way)
  retried : ∃ record, record.Extends config.toConfig entry ∧
    ∀ time, next.currentTime ≤ time → ∀ bandwidth, 0 < bandwidth →
      (Queue.span bandwidth (Pipeline.fillReady time) queue).head? = some record

namespace Pipeline

variable {config : OperateConfig} {Module : Type}

theorem fillStart_keeps (pipeline ready : Pipeline config Module)
    (ran : pipeline.fillStart = some ready) : KeepsBlocks pipeline.toState ready.toState := by
  obtain ⟨finished, finishes, ready⟩ := Option.map_eq_some_iff.mp ran
  obtain ⟨state, returned, kept⟩ := Option.map_eq_some_iff.mp finishes
  obtain ⟨upperLevels, checked⟩ := pipeline.checkCollisions_shape
  rw [checked] at returned
  have block := (State.finishEach_pending _ state _ returned).1
  have same := State.finishEach_withMshr _ state _ returned
  have wq : state.lowerLevel.wq = pipeline.lowerLevel.wq := by
    rw [same]
    rfl
  have wqSize : state.lowerLevel.wqSize = pipeline.lowerLevel.wqSize := by
    rw [same]
    rfl
  obtain ⟨stash, lookups, translate, translated⟩ := finished.finishTranslations_shape
  rw [← ready, translated, ← kept]
  exact KeepsBlocks.of_eq block wq wqSize

/-- A block that is dirty before a cycle is in its way after it, or was sent below. -/
theorem operate_saves (hooks : CycleModules Module) (pipeline next : Pipeline config Module)
    (set way : Nat) (old : CacheBlock) (dirty : Keeps old (pipeline.blockAt set way))
    (ran : operate hooks pipeline = some next) :
    Saved old set way pipeline.lowerLevel.wq next.toState := by
  obtain ⟨ready, served, starts, fills, checks⟩ := operate_parts hooks pipeline next ran
  have initial : Saved old set way pipeline.lowerLevel.wq pipeline.toState :=
    ⟨[], (List.append_nil _).symm, Or.inl dirty⟩
  have afterStart := initial.kept (pipeline.fillStart_keeps ready starts)
  have afterFills := performFills_invariant hooks.toModules
    (Saved old set way pipeline.lowerLevel.wq) ready served
    (fun _state _entry _member _filled _last saved effect => saved.fill effect)
    (fun _state _mshr _writes saved => saved) afterStart fills
  exact checkTags_invariant hooks (Saved old set way pipeline.lowerLevel.wq) served next
    (fun _state _pkt _accepted _last saved effect => saved.kept (KeepsBlocks.hit effect))
    (fun state pkt saved => saved.kept (KeepsBlocks.miss state pkt))
    (fun _state _upper _pq _stats _modules saved => saved) afterFills checks

theorem operate_savesOnce (hooks : CycleModules Module) (pipeline next : Pipeline config Module)
    (set way : Nat) (old : CacheBlock) (dirty : Keeps old (pipeline.blockAt set way))
    (resides : pipeline.Resides (config.blockNumber old.address))
    (alone : pipeline.RecordedOnce (config.blockNumber old.address))
    (ran : operate hooks pipeline = some next) :
    SavedOnce old set way pipeline.lowerLevel.wq next.toState := by
  obtain ⟨ready, served, starts, fills, checks⟩ := operate_parts hooks pipeline next ran
  have resident : pipeline.Resident set way (config.blockNumber old.address) :=
    ⟨dirty.valid, congrArg config.blockNumber dirty.address⟩
  have initial : SavedOnce old set way pipeline.lowerLevel.wq pipeline.toState := by
    refine ⟨[], (List.append_nil _).symm, Or.inl ⟨dirty, rfl, ?_⟩⟩
    intro otherSet otherWay other
    have sameSet := (resides.placed otherSet otherWay other).trans
      (resides.placed set way resident).symm
    subst sameSet
    exact ⟨rfl, resides.once otherSet otherWay way other resident⟩
  have kept := pipeline.fillStart_keeps ready starts
  have afterStart := initial.kept kept
  obtain ⟨stillResides, _stillAlone⟩ := pipeline.fillStart_resides ready resides alone starts
  have stillDirty := kept.keeps set way old dirty
  have unrecorded : config.blockNumber old.address ∉ ready.pendingBlocks := by
    intro due
    exact stillResides.absent due set way
      ⟨stillDirty.valid, congrArg config.blockNumber stillDirty.address⟩
  have afterFills := performFills_invariant hooks.toModules
    (SavedOnce old set way pipeline.lowerLevel.wq) ready served
    (fun state entry member filled last saved effect => by
      apply saved.fill ?_ effect
      intro named
      apply unrecorded
      rw [← named]
      exact List.mem_map_of_mem member)
    (fun _state _mshr _writes saved => saved) afterStart fills
  exact checkTags_invariant hooks (SavedOnce old set way pipeline.lowerLevel.wq) served next
    (fun _state _pkt _accepted _last saved effect => saved.kept (KeepsBlocks.hit effect))
    (fun state pkt saved => saved.kept (KeepsBlocks.miss state pkt))
    (fun _state _upper _pq _stats _modules saved => saved) afterFills checks

/-! ### Refusals in a cycle -/

/-- The miss whose fill a cycle is refused, and the state that refuses it. -/
def refusedMshr (hooks : Modules Module) (pipeline : Pipeline config Module) :
    Option (Mshr × State config.toConfig Module) :=
  pipeline.fillStart.bind fun ready => State.refusedFill hooks ready.toState
    (Queue.span config.maxFill (fillReady ready.currentTime) ready.mshr)

/-- The write whose fill a cycle is refused, and the state that refuses it. -/
def refusedWrite (hooks : Modules Module) (pipeline : Pipeline config Module) :
    Option (Mshr × State config.toConfig Module) :=
  pipeline.fillStart.bind fun ready => (ready.fillMshrs hooks).bind fun (filled, middle) =>
    State.refusedFill hooks middle.toState
      (Queue.span (config.maxFill - filled) (fillReady middle.currentTime) middle.inflightWrites)

/-- The state after a refusal, in which the record waits first in `queue`. -/
structure Refusing (before : State config.toConfig Module) (entry : Mshr) (way time : Nat)
    (queue : State config.toConfig Module → List Mshr) (state : State config.toConfig Module) :
    Prop where
  stuck : Stuck (before.blockAt (config.getSetIndex entry.address) way)
    (config.getSetIndex entry.address) way state
  begins : Begins config.toConfig entry (queue state)
  time : state.currentTime = time

theorem refused_stuck {before last : State config.toConfig Module} {entry : Mshr}
    (effect : FillEffect before entry false last) :
    (∃ cpu modules, last = { before with cpu, modules }) ∧ ∃ way < config.numWay,
      before.lowerLevel.addWq (State.writebackPacket entry
        (before.blockAt (config.getSetIndex entry.address) way)) = none ∧
      Stuck (before.blockAt (config.getSetIndex entry.address) way)
        (config.getSetIndex entry.address) way last := by
  cases effect with
  | refused cpu modules way within valid dirty full =>
      refine ⟨⟨cpu, modules, rfl⟩, way, within, full, ⟨valid, dirty, rfl, rfl⟩, ?_⟩
      by_contra room
      unfold Channel.addWq doAddQueue at full
      rw [if_neg room] at full
      cases full

theorem refused_begins (config : OperateConfig) {queue : List Mshr} {bandwidth count : Nat}
    {condition : Mshr → Bool} {entry : Mshr} (read : (Queue.span bandwidth condition queue)[count]? = some entry) :
    Begins config.toConfig entry (queue.drop count) ∧ condition entry = true := by
  have member := List.mem_of_getElem? read
  obtain ⟨rest, split⟩ := Queue.span_isPrefix bandwidth condition queue
  obtain ⟨within, same⟩ := List.getElem?_eq_some_iff.mp read
  refine ⟨?_, Queue.span_holds _ _ _ _ member⟩
  have inQueue : queue[count]? = some entry := by
    rw [← split, List.getElem?_append_left within]
    exact read
  obtain ⟨inside, found⟩ := List.getElem?_eq_some_iff.mp inQueue
  refine ⟨entry, queue.drop (count + 1), ?_, Mshr.Extends.refl _ entry⟩
  rw [List.drop_eq_getElem_cons inside, found]

theorem refusing_kept (hooks : CycleModules Module) (served next : Pipeline config Module)
    (before : State config.toConfig Module) (entry : Mshr) (way time : Nat)
    (queue : State config.toConfig Module → List Mshr)
    (hits : ∀ state handlePkt accepted last, HitEffect state handlePkt accepted last →
      queue last = queue state)
    (misses : ∀ state handlePkt, Begins config.toConfig entry (queue state) →
      Begins config.toConfig entry (queue (state.doHandleMiss handlePkt).2))
    (others : ∀ (state : State config.toConfig Module) upperLevels internalPq simStats modules,
      queue { state with upperLevels, internalPq, simStats, modules } = queue state)
    (refusing : Refusing before entry way time queue served.toState)
    (ran : served.initiateTagChecks.pipeline.checkTags hooks = some next) :
    Refusing before entry way time queue next.toState := by
  apply checkTags_invariant hooks (Refusing before entry way time queue) served next ?_ ?_ ?_
    refusing ran
  · intro state handlePkt accepted last kept effect
    refine ⟨kept.stuck.kept (KeepsBlocks.hit effect), ?_, ?_⟩
    · rw [hits state handlePkt accepted last effect]
      exact kept.begins
    · rw [← kept.time]
      exact (hitEffect_keeps handlePkt accepted effect).1.currentTime
  · intro state handlePkt kept
    refine ⟨kept.stuck.kept (KeepsBlocks.miss state handlePkt),
      misses state handlePkt kept.begins, ?_⟩
    rw [← kept.time]
    exact (state.doHandleMiss_frame handlePkt).2.1
  · intro state upperLevels internalPq simStats modules kept
    refine ⟨kept.stuck, ?_, kept.time⟩
    rw [others state upperLevels internalPq simStats modules]
    exact kept.begins

theorem Refusing.refusalKept {hooks : Modules Module} {before : State config.toConfig Module}
    {next : Pipeline config Module} {entry : Mshr} {way time : Nat}
    {queue : State config.toConfig Module → List Mshr}
    (refusing : Refusing before entry way time queue next.toState)
    (unchanged : ∃ cpu modules,
      State.handleFill hooks before entry = some (false, { before with cpu, modules }))
    (within : way < config.numWay)
    (refuses : before.lowerLevel.addWq (State.writebackPacket entry
      (before.blockAt (config.getSetIndex entry.address) way)) = none)
    (dirty : Keeps (before.blockAt (config.getSetIndex entry.address) way)
      (before.blockAt (config.getSetIndex entry.address) way))
    (ready : fillReady time entry = true) :
    RefusalKept hooks before entry next (queue next.toState) := by
  refine ⟨unchanged, ⟨way, within, refuses, dirty, refusing.stuck.1⟩, ?_⟩
  obtain ⟨record, rest, split, extended⟩ := refusing.begins
  refine ⟨record, extended, ?_⟩
  intro later reached bandwidth positive
  have stillReady : fillReady later record = true := by
    unfold fillReady Waitable.isReadyAt at ready ⊢
    rw [extended.dataPromise]
    split at ready
    · rename_i cycle known
      rw [refusing.time] at reached
      exact decide_eq_true (Nat.le_trans (of_decide_eq_true ready) reached)
    · cases ready
  obtain ⟨more, same⟩ := Nat.exists_eq_succ_of_ne_zero (Nat.ne_of_gt positive)
  rw [split, same, Queue.span, List.take_succ_cons, List.takeWhile_cons_of_pos stillReady]
  rfl

theorem refusedMshr_kept (hooks : CycleModules Module) (pipeline next : Pipeline config Module)
    (entry : Mshr) (before : State config.toConfig Module)
    (ran : operate hooks pipeline = some next)
    (refused : pipeline.refusedMshr hooks.toModules = some (entry, before)) :
    RefusalKept hooks.toModules before entry next next.mshr := by
  obtain ⟨ready, served, starts, fills, checks⟩ := operate_parts hooks pipeline next ran
  rw [refusedMshr, starts] at refused
  obtain ⟨⟨filled, middle⟩, mshrs, writes⟩ := Option.bind_eq_some_iff.mp fills
  obtain ⟨⟨count, last⟩, first, same⟩ := Option.map_eq_some_iff.mp mshrs
  cases same
  obtain ⟨⟨written, reached⟩, second, done⟩ := Option.map_eq_some_iff.mp writes
  subst done
  obtain ⟨read, refuses⟩ := State.refusedFill_last _ _ last before _ filled entry first refused
  obtain ⟨begins, isReady⟩ := refused_begins config read
  obtain ⟨⟨cpu, modules, unchanged⟩, way, within, full, stuck⟩ :=
    refused_stuck (State.handleFill_effect _ before last entry false refuses)
  have kept := (fillSpan_keeps hooks.toModules _ _ first).1.1
  have refusing : Refusing before entry way ready.currentTime State.mshr
      { last with mshr := last.mshr.drop filled } := by
    refine ⟨stuck, ?_, kept.currentTime⟩
    dsimp only
    rw [kept.mshr]
    exact begins
  have afterWrites := (State.fillSpan_invariant hooks.toModules
    (Refusing before entry way ready.currentTime State.mshr) _
    (fun state other _member accepted after kept effect => by
      have same := (fillEffect_keeps other accepted effect).1
      refine ⟨kept.stuck.fill effect, ?_, same.currentTime.trans kept.time⟩
      rw [same.mshr]
      exact kept.begins) _ _ _ refusing second).1
  have erased : Refusing before entry way ready.currentTime State.mshr
      { reached with inflightWrites := reached.inflightWrites.drop written } :=
    ⟨afterWrites.stuck, afterWrites.begins, afterWrites.time⟩
  have settled := refusing_kept hooks _ next before entry way ready.currentTime State.mshr
    (fun _state pkt accepted _last effect => (hitEffect_keeps pkt accepted effect).1.mshr)
    (fun _state pkt still => still.miss_mshr pkt)
    (fun _state _upper _pq _stats _modules => rfl) erased checks
  rw [unchanged] at refuses
  refine settled.refusalKept ⟨cpu, modules, refuses⟩ within full ?_ isReady
  rw [unchanged] at stuck
  exact stuck.1

theorem refusedWrite_kept (hooks : CycleModules Module) (pipeline next : Pipeline config Module)
    (entry : Mshr) (before : State config.toConfig Module)
    (ran : operate hooks pipeline = some next)
    (refused : pipeline.refusedWrite hooks.toModules = some (entry, before)) :
    RefusalKept hooks.toModules before entry next next.inflightWrites := by
  obtain ⟨ready, served, starts, fills, checks⟩ := operate_parts hooks pipeline next ran
  obtain ⟨⟨filled, middle⟩, mshrs, writes⟩ := Option.bind_eq_some_iff.mp fills
  rw [refusedWrite, starts, Option.bind_some, mshrs, Option.bind_some] at refused
  obtain ⟨⟨written, last⟩, second, done⟩ := Option.map_eq_some_iff.mp writes
  subst done
  obtain ⟨read, refuses⟩ := State.refusedFill_last _ _ last before _ written entry second refused
  obtain ⟨begins, isReady⟩ := refused_begins config read
  obtain ⟨⟨cpu, modules, unchanged⟩, way, within, full, stuck⟩ :=
    refused_stuck (State.handleFill_effect _ before last entry false refuses)
  have kept := (fillSpan_keeps hooks.toModules _ _ second).1.1
  have queue := (State.fillSpan_records hooks.toModules _ _ _ _ second).1.2
  have refusing : Refusing before entry way middle.currentTime State.inflightWrites
      { last with inflightWrites := last.inflightWrites.drop written } := by
    refine ⟨stuck, ?_, kept.currentTime⟩
    dsimp only
    rw [queue]
    exact begins
  have settled := refusing_kept hooks _ next before entry way middle.currentTime
    State.inflightWrites
    (fun _state _pkt _accepted _last effect => State.checked_inflightWrites effect)
    (fun _state pkt still => still.miss_writes pkt)
    (fun _state _upper _pq _stats _modules => rfl) refusing checks
  rw [unchanged] at refuses
  refine settled.refusalKept ⟨cpu, modules, refuses⟩ within full ?_ isReady
  rw [unchanged] at stuck
  exact stuck.1

def accepted (before after : Pipeline config Module) : List Request :=
  after.lowerLevel.wq.drop before.lowerLevel.wq.length

/-- What a cycle does with dirty blocks of a number, and with refused fills. -/
structure WritesBack (hooks : Modules Module) (pipeline next : Pipeline config Module)
    (block : BitVec 64) : Prop where
  once : ∀ set way, Keeps (pipeline.blockAt set way) (pipeline.blockAt set way) →
    config.blockNumber (pipeline.blockAt set way).address = block →
    Keeps (pipeline.blockAt set way) (next.blockAt set way) ∨
      (writebacksOf (pipeline.blockAt set way) (accepted pipeline next)).length = 1
  misses : ∀ entry before, pipeline.refusedMshr hooks = some (entry, before) →
    RefusalKept hooks before entry next next.mshr
  writes : ∀ entry before, pipeline.refusedWrite hooks = some (entry, before) →
    RefusalKept hooks before entry next next.inflightWrites

/-- In a run in which every step starts with at most one record of a block,
each cycle writes the block back as often as it leaves its way. -/
theorem recordingOnce_writesBack (hooks : CycleModules Module) (block : BitVec 64)
    (start : Pipeline config Module) (idle : Idle start) (labels : List (Step Module))
    (reached next : Pipeline config Module)
    (ran : (recordingOnce hooks block).run start labels = some reached)
    (stepped : (recordingOnce hooks block).step reached .operate = some next) :
    WritesBack hooks.toModules
      { reached with currentTime := reached.currentTime + config.clockPeriod } next block := by
  have resides := recordingOnce_resides hooks block start idle labels reached ran
  obtain ⟨alone, moved⟩ := ((cycles hooks).restrict_step_iff _ _ _ _).mp stepped
  constructor
  · intro set way dirty named
    obtain ⟨written, sent, saves⟩ := operate_savesOnce hooks
      { reached with currentTime := reached.currentTime + config.clockPeriod } next set way _ dirty
      (named ▸ resides.same rfl rfl rfl) (named ▸ alone) moved
    have all : accepted
        { reached with currentTime := reached.currentTime + config.clockPeriod } next = written := by
      unfold accepted
      rw [sent, List.drop_left]
    rw [all]
    rcases saves with ⟨keeps, _none, _only⟩ | ⟨once, _absent⟩
    · exact Or.inl keeps
    · exact Or.inr once
  · intro entry before refused
    exact refusedMshr_kept hooks _ next entry before moved refused
  · intro entry before refused
    exact refusedWrite_kept hooks _ next entry before moved refused

end Pipeline

/-! ### One block in both ways -/

def roundRobin : CycleModules Nat where
  findVictim count _ _ _ _ _ _ _ := (count + 1, (count % 2 : Nat))
  updateReplacementState count _ _ _ _ _ _ _ _ := count
  replacementCacheFill count _ _ _ _ _ _ _ := count
  prefetcherCacheOperate count _ _ _ _ _ metadata := (count, [], metadata)
  prefetcherCacheFill count _ _ _ _ _ metadata := (count, [], metadata)
  prefetcherCycleOperate count := (count, [])

def idleRoundRobin : Pipeline twoWays Nat where
  upperLevels := requestsAbove [] []
  lowerLevel := { rqSize := 4, pqSize := 4, wqSize := 4 }
  modules := 0
  upperOrder := [0]

theorem idleRoundRobin_idle : Idle idleRoundRobin := ⟨rfl, rfl, rfl, rfl, rfl, rfl, rfl⟩

def writeTo (address : Address) : Request :=
  { address, type := .write, responseRequested := false }

/-- Two writes of a block are filled, and then two other blocks evict both. -/
def writesTwice : List (Step Nat) :=
  [.upperLevels (requestsAbove [] [writeTo 0x40]), .operate,
    .upperLevels (requestsAbove [] [writeTo 0x40]), .operate,
    .upperLevels (requestsAbove [] [writeTo 0x80, writeTo 0xC0]),
    .operate, .operate, .operate, .operate]

/-- One write of a block is filled, and then two other blocks evict it. -/
def writesOnce : List (Step Nat) :=
  [.upperLevels (requestsAbove [] [writeTo 0x40, writeTo 0x80, writeTo 0xC0]),
    .operate, .operate, .operate, .operate]

private theorem writesTwice_sends :
    ((cycles roundRobin).run idleRoundRobin writesTwice).any (fun reached =>
      ((cycles roundRobin).step reached .operate).any (fun next =>
        decide ((reached.blockAt 0 0).valid = true ∧ (reached.blockAt 0 0).dirty = true ∧
          (next.blockAt 0 0).address ≠ (reached.blockAt 0 0).address ∧
          (writebacksOf (reached.blockAt 0 0) (Pipeline.accepted reached next)).length = 2))) =
      true := by
  decide +kernel

private theorem writesOnce_runs :
    ((Pipeline.recordingOnce roundRobin 1).run idleRoundRobin writesOnce).any (fun reached =>
      ((Pipeline.recordingOnce roundRobin 1).step reached .operate).isSome) = true := by
  decide +kernel

theorem recordingOnce_writesBack_once :
    ∃ reached next,
      (Pipeline.recordingOnce roundRobin 1).run idleRoundRobin writesOnce = some reached ∧
      (Pipeline.recordingOnce roundRobin 1).step reached .operate = some next ∧
      Pipeline.WritesBack roundRobin.toModules
        { reached with currentTime := reached.currentTime + twoWays.clockPeriod } next 1 := by
  obtain ⟨reached, ran, steps⟩ := (Option.any_eq_true _ _).mp writesOnce_runs
  obtain ⟨next, stepped⟩ := Option.isSome_iff_exists.mp steps
  exact ⟨reached, next, ran, stepped, Pipeline.recordingOnce_writesBack roundRobin 1 idleRoundRobin
    idleRoundRobin_idle writesOnce reached next ran stepped⟩

/-- A block in both ways is written back twice in one cycle. -/
theorem writesTwice_not_writtenOnce :
    ¬∀ labels reached next, (cycles roundRobin).run idleRoundRobin labels = some reached →
      (cycles roundRobin).step reached .operate = some next →
      ∀ set way, Keeps (reached.blockAt set way) (reached.blockAt set way) →
        Keeps (reached.blockAt set way) (next.blockAt set way) ∨
          (writebacksOf (reached.blockAt set way) (Pipeline.accepted reached next)).length = 1 := by
  intro once
  obtain ⟨reached, ran, steps⟩ := (Option.any_eq_true _ _).mp writesTwice_sends
  obtain ⟨next, stepped, sends⟩ := (Option.any_eq_true _ _).mp steps
  obtain ⟨valid, dirty, gone, twice⟩ := of_decide_eq_true sends
  rcases once writesTwice reached next ran stepped 0 0 ⟨valid, dirty, rfl, rfl⟩ with keeps | single
  · exact gone keeps.address
  · rw [twice] at single
    cases single

end ChampSim.Cache

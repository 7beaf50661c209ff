/-
Who waits for the answers of a cache.

A request that is taken from above is held by a tag lookup, by a miss register
or by a write that is to be filled, and its requester by the same. The parts of
a cycle hand requests from one to another and answer what they let go.
-/

import ChampSim.Cache.Cycle
import ChampSim.Cache.Returns
import ChampSim.Library.Custody

set_option autoImplicit false

namespace ChampSim.Cache

open Transition Custody

/-- The block that a request is for, once its address is translated. -/
inductive Place where
  | block (number : BitVec 64)
  | untranslated (vAddress : Address)
deriving DecidableEq, Repr

def TagLookup.holder (config : Config) (entry : TagLookup) : Holder Place where
  place :=
    if entry.isTranslated then .block (config.blockNumber entry.address)
    else .untranslated entry.vAddress
  toReturn := entry.toReturn
  tokens := entry.instrDependOnMe

def Mshr.holder (config : Config) (entry : Mshr) : Holder Place where
  place := .block (entry.block config)
  toReturn := entry.toReturn
  tokens := entry.instrDependOnMe

def Resolves (config : OperateConfig) (translations : List Response) : Place → Place → Prop
  | .untranslated vAddress, .block number => ∃ packet ∈ translations,
      vAddress.sliceUpper config.log2PageSize = packet.vAddress.sliceUpper config.log2PageSize ∧
        number = config.blockNumber (Address.splice packet.data vAddress config.log2PageSize)
  | _, _ => False

/-- A response for the block of a holder that hands back its instructions. -/
def Replies (config : Config) (response : Response) (holder : Holder Place) : Prop :=
  holder.place = .block (config.blockNumber response.address) ∧
    response.instrDependOnMe = holder.tokens

/-- Each answer is pushed to every level that its holder names. -/
def Sent (before : Nat → Channel) (answers : List (Holder Place × Response))
    (after : Nat → Channel) : Prop :=
  ∀ level, ∃ pushed, (after level).returned = (before level).returned ++ pushed ∧
    ∀ answer ∈ answers, level ∈ answer.1.toReturn → answer.2 ∈ pushed

theorem Sent.nothing (levels : Nat → Channel) : Sent levels [] levels := by
  intro level
  refine ⟨[], (List.append_nil _).symm, ?_⟩
  intro answer member
  cases member

theorem Sent.together {before middle after : Nat → Channel}
    {first second : List (Holder Place × Response)} (sent : Sent before first middle)
    (later : Sent middle second after) : Sent before (first ++ second) after := by
  intro level
  obtain ⟨pushed, returned, answered⟩ := sent level
  obtain ⟨more, laterReturned, laterAnswered⟩ := later level
  refine ⟨pushed ++ more, ?_, ?_⟩
  · rw [laterReturned, returned, List.append_assoc]
  · intro answer member named
    rcases List.mem_append.mp member with earlier | newer
    · exact List.mem_append_left _ (answered answer earlier named)
    · exact List.mem_append_right _ (laterAnswered answer newer named)

theorem Sent.respond (levels : Nat → Channel) (holder : Holder Place) (response : Response) :
    Sent levels [(holder, response)] (respondLevels levels holder.toReturn response) := by
  intro level
  refine ⟨List.replicate (holder.toReturn.count level) response,
    respondLevels_returned levels holder.toReturn response level, ?_⟩
  intro answer member named
  rw [List.mem_singleton.mp member] at named ⊢
  exact List.mem_replicate.mpr ⟨Nat.ne_of_gt (List.count_pos_iff.mpr named), rfl⟩

section OneState

variable {config : OperateConfig} {Module : Type} (translations : List Response)

def State.recordHolders (state : State config.toConfig Module) : List (Holder Place) :=
  (state.mshr ++ state.inflightWrites).map (Mshr.holder config.toConfig)

abbrev HandsOver (state : State config.toConfig Module) (before : List (Holder Place))
    (next : State config.toConfig Module) (after : List (Holder Place)) : Prop :=
  Hands (Resolves config translations) (Replies config.toConfig)
    (fun state answers next => Sent state.upperLevels answers next.upperLevels) state before next
    after

variable {state next : State config.toConfig Module} {translations}

theorem HandsOver.same (levels : next.upperLevels = state.upperLevels)
    {before after : List (Holder Place)} (holders : before.Perm after) :
    HandsOver translations state before next after := by
  refine ⟨[], .reorder before after holders, ?_⟩
  dsimp only
  rw [levels]
  exact Sent.nothing state.upperLevels

/-! ### Fills -/

theorem fillSpan_hands (hooks : Modules Module) (queue : List Mshr) (count : Nat)
    (rest : List (Holder Place))
    (ran : State.fillSpan hooks state queue = some (count, next)) :
    HandsOver translations state (queue.map (Mshr.holder config.toConfig) ++ rest) next
      ((queue.drop count).map (Mshr.holder config.toConfig) ++ rest) := by
  induction queue generalizing state count with
  | nil =>
      cases ran
      exact HandsOver.same rfl (List.Perm.refl _)
  | cons entry others ih =>
      obtain ⟨⟨filled, middle⟩, fill, remaining⟩ := Option.bind_eq_some_iff.mp ran
      have effect := State.handleFill_effect hooks state middle entry filled fill
      cases filled with
      | false =>
          cases remaining
          cases effect with
          | refused => exact HandsOver.same rfl (List.Perm.refl _)
      | true =>
          obtain ⟨⟨more, last⟩, filledRest, same⟩ := Option.map_eq_some_iff.mp remaining
          cases same
          have later := ih more filledRest
          have first : HandsOver translations state
              ((entry :: others).map (Mshr.holder config.toConfig) ++ rest) middle
              (others.map (Mshr.holder config.toConfig) ++ rest) := by
            cases effect with
            | bypassed cpu added simStats modules metadata issued readable =>
                exact ⟨_, .answer _ (fillResponse entry metadata) _ ⟨rfl, rfl⟩,
                  Sent.respond state.upperLevels (entry.holder config.toConfig) _⟩
            | installed cpu added simStats modules metadata way lowerLevel issued within written =>
                exact ⟨_, .answer _ (fillResponse entry metadata) _ ⟨rfl, rfl⟩,
                  Sent.respond state.upperLevels (entry.holder config.toConfig) _⟩
          exact first.trans (fun _ _ _ _ _ => Sent.together) later

/-! ### Tag checks -/

theorem tryHit_hands (hooks : Modules Module) (state : State config.toConfig Module)
    (entry : TagLookup) (translated : entry.isTranslated = true) :
    HandsOver translations state (entry.holder config.toConfig :: state.recordHolders)
      (State.tryHit hooks state entry).2
      (if (State.tryHit hooks state entry).1 then (State.tryHit hooks state entry).2.recordHolders
        else entry.holder config.toConfig :: (State.tryHit hooks state entry).2.recordHolders) := by
  have effect := State.tryHit_effect hooks state entry
  revert effect
  generalize State.tryHit hooks state entry = tried
  obtain ⟨hit, next⟩ := tried
  intro effect
  cases effect with
  | missed => exact HandsOver.same rfl (List.Perm.refl _)
  | hit cpu added simStats modules way prefetch metadata issued within holds =>
      refine ⟨_, .answer _ (hitResponse entry _ metadata) _ ⟨?_, rfl⟩,
        Sent.respond state.upperLevels (entry.holder config.toConfig) _⟩
      exact if_pos translated

/-- A prefetch of the cache itself answers to no one. -/
def TagLookup.Local (entry : TagLookup) : Prop :=
  entry.prefetchFromThis = true → entry.toReturn = []

theorem merge_hands (levels : next.upperLevels = state.upperLevels) (entry : Mshr)
    (handlePkt : TagLookup) (time : Nat) (rest : List (Holder Place))
    (translated : handlePkt.isTranslated = true)
    (same : entry.block config.toConfig = config.blockNumber handlePkt.address) :
    HandsOver translations state
      (entry.holder config.toConfig :: handlePkt.holder config.toConfig :: rest) next
      ((entry.merge (Mshr.ofTagLookup handlePkt time)).holder config.toConfig :: rest) := by
  have block := Mshr.merge_block config.toConfig entry (Mshr.ofTagLookup handlePkt time) same
  refine ⟨[], .merge _ _ _ rest ?_ ?_ (fun level => mem_setUnion _ _ level)
    (fun instr => mem_setUnion _ _ instr), ?_⟩
  · exact congrArg Place.block block
  · have place : (handlePkt.holder config.toConfig).place =
        .block (config.blockNumber handlePkt.address) := if_pos translated
    rw [place, ← same, ← block]
    rfl
  · dsimp only
    rw [levels]
    exact Sent.nothing _

theorem doHandleMiss_hands (state : State config.toConfig Module) (entry : TagLookup)
    (translated : entry.isTranslated = true) (isLocal : entry.Local) :
    HandsOver translations state (entry.holder config.toConfig :: state.recordHolders)
      (state.doHandleMiss entry).2
      (if (state.doHandleMiss entry).1 then (state.doHandleMiss entry).2.recordHolders
        else entry.holder config.toConfig :: (state.doHandleMiss entry).2.recordHolders) := by
  have becomes : ∀ record : Mshr, record.toReturn = entry.toReturn →
      record.instrDependOnMe = entry.instrDependOnMe → record.address = entry.address →
      record.holder config.toConfig = entry.holder config.toConfig := by
    intro record toReturn instrs address
    unfold Mshr.holder TagLookup.holder Mshr.block
    rw [toReturn, instrs, address, if_pos translated]
  apply state.doHandleMiss_cases entry (fun missed => HandsOver translations state
    (entry.holder config.toConfig :: state.recordHolders) missed.2
    (if missed.1 then missed.2.recordHolders
      else entry.holder config.toConfig :: missed.2.recordHolders))
  · intro _written
    have appended : (state.handleWrite entry).2.recordHolders =
        state.recordHolders ++ [entry.holder config.toConfig] := by
      change (List.map _ (state.mshr ++ (state.inflightWrites ++ [_]))) = _
      rw [← List.append_assoc, List.map_append, List.map_singleton, becomes _ rfl rfl rfl]
      rfl
    have moved : (entry.holder config.toConfig :: state.recordHolders).Perm
        (state.handleWrite entry).2.recordHolders := by
      rw [appended]
      exact (List.perm_append_singleton _ _).symm
    exact HandsOver.same rfl moved
  · intro accepted next step
    cases step with
    | merged cpu simStats before after record split same =>
        rw [if_pos rfl]
        unfold State.recordHolders
        rw [split]
        simp only [List.append_assoc, List.map_append, List.map_cons, List.cons_append]
        have merges : HandsOver translations state _
          { state with
            cpu
            simStats
            mshr := before ++ record.merge (Mshr.ofTagLookup entry state.currentTime) :: after } _ :=
          merge_hands rfl record entry state.currentTime
            (before.map (Mshr.holder config.toConfig) ++ (after.map (Mshr.holder config.toConfig) ++
              state.inflightWrites.map (Mshr.holder config.toConfig))) translated same
        obtain ⟨answers, moves, sent⟩ := merges
        refine ⟨answers, (moves.before_perm ?_).after_perm ?_, sent⟩
        · exact (List.perm_middle.cons _).trans (List.Perm.swap _ _ _)
        · exact List.perm_middle.symm
    | refused cpu =>
        rw [if_neg Bool.false_ne_true]
        exact HandsOver.same rfl (List.Perm.refl _)
    | forwarded cpu simStats lowerLevel fresh room sent =>
        rw [if_pos rfl]
        unfold State.recordHolders
        cases asked : asksResponse entry with
        | true =>
            apply HandsOver.same rfl
            dsimp only
            rw [if_pos rfl, List.append_assoc, List.map_append, List.map_append, List.map_append,
              List.map_singleton, becomes _ rfl rfl rfl]
            exact List.perm_middle.symm
        | false =>
            have mine : entry.prefetchFromThis = true := by
              unfold asksResponse at asked
              cases prefetched : entry.prefetchFromThis with
              | true => rfl
              | false =>
                  rw [prefetched] at asked
                  cases asked
            refine ⟨[], ?_, Sent.nothing state.upperLevels⟩
            dsimp only
            rw [if_neg Bool.false_ne_true]
            exact .drop _ _ (isLocal mine)

end OneState

namespace Pipeline

variable {config : OperateConfig} {Module : Type} {translations : List Response}

def lookups (pipeline : Pipeline config Module) : List TagLookup :=
  pipeline.inflightTagCheck ++ pipeline.translationStash

/-- Those who hold requests that the cache has taken and not answered. -/
def holders (pipeline : Pipeline config Module) : List (Holder Place) :=
  pipeline.lookups.map (TagLookup.holder config.toConfig) ++ pipeline.recordHolders

/-- Requests go from holder to holder in a part of a cycle. -/
abbrev HandsTo (translations : List Response) (pipeline next : Pipeline config Module) : Prop :=
  HandsOver translations pipeline.toState pipeline.holders next.toState next.holders

theorem HandsTo.trans {first second third : Pipeline config Module}
    (hands : HandsTo translations first second) (later : HandsTo translations second third) :
    HandsTo translations first third :=
  Hands.trans (fun _ _ _ _ _ => Sent.together) hands later

/-! ### Returns -/

theorem finishPackets_hands (pipeline next : Pipeline config Module)
    (ran : pipeline.finishPackets = some next) : HandsTo translations pipeline next := by
  obtain ⟨state, finished, same⟩ := Option.map_eq_some_iff.mp ran
  have records : pipeline.recordHolders.Perm state.recordHolders ∧
      state.upperLevels = pipeline.upperLevels := by
    clear ran same
    revert finished
    generalize pipeline.lowerLevel.returned = packets
    intro finished
    generalize pipeline.toState = start at finished ⊢
    induction packets generalizing start with
    | nil =>
        cases finished
        exact ⟨List.Perm.refl _, rfl⟩
    | cons packet rest ih =>
        obtain ⟨middle, first, others⟩ := Option.bind_eq_some_iff.mp finished
        obtain ⟨before, entry, after, promise, split, moved⟩ :=
          start.finishPacket_effect middle packet first
        have kept := start.finishPacket_withMshr middle packet first
        have writes : middle.inflightWrites = start.inflightWrites := by
          rw [kept]
          rfl
        have levels : middle.upperLevels = start.upperLevels := by
          rw [kept]
          rfl
        obtain ⟨later, laterLevels⟩ := ih middle others
        refine ⟨List.Perm.trans ?_ later, laterLevels.trans levels⟩
        unfold State.recordHolders
        rw [writes, List.map_append, List.map_append]
        apply List.Perm.append_right
        have same := (moved.map (Mshr.holder config.toConfig)).symm
        rw [split]
        rw [List.map_append, List.map_cons] at same ⊢
        exact same
  subst same
  exact HandsOver.same records.2 (records.1.append_left _)

/-! ### Translations -/

theorem holder_markTranslated (packet : Response) (entry : TagLookup)
    (member : packet ∈ translations) (waits : matchesVpage config packet entry = true) :
    ∃ place, Resolves config translations (entry.holder config.toConfig).place place ∧
      (markTranslated config packet entry).holder config.toConfig =
        { entry.holder config.toConfig with place } := by
  unfold matchesVpage at waits
  rw [Bool.and_eq_true, Bool.not_eq_true'] at waits
  obtain ⟨samePage, untranslated⟩ := waits
  refine ⟨.block (config.blockNumber
    (Address.splice packet.data entry.vAddress config.log2PageSize)), ?_, rfl⟩
  have place : (entry.holder config.toConfig).place = .untranslated entry.vAddress := by
    unfold TagLookup.holder
    dsimp only
    rw [untranslated, if_neg Bool.false_ne_true]
  rw [place]
  exact ⟨packet, member, of_decide_eq_true samePage, rfl⟩

/-- Entries that match a packet are translated, and the others are as they were. -/
def translated (config : OperateConfig) (packet : Response) (entry : TagLookup) : TagLookup :=
  if matchesVpage config packet entry then markTranslated config packet entry else entry

theorem finishTranslation_lookups (pipeline : Pipeline config Module) (packet : Response) :
    (pipeline.lookups.map (translated config packet)).Perm
      (pipeline.finishTranslation packet).lookups := by
  unfold lookups finishTranslation
  dsimp only
  rw [List.map_append]
  apply List.Perm.append_left
  have early : ∀ entry ∈ pipeline.translationStash.takeWhile (fun entry => entry.isTranslated),
      translated config packet entry = entry := by
    intro entry member
    have known := List.mem_takeWhile_imp member
    rw [translated, matchesVpage, known, Bool.not_true, Bool.and_false, if_neg Bool.false_ne_true]
  have split : pipeline.translationStash.map (translated config packet) =
      pipeline.translationStash.takeWhile (fun entry => entry.isTranslated) ++
        (pipeline.translationStash.dropWhile (fun entry => entry.isTranslated)).map
          (translated config packet) := by
    conv_lhs => rw [← List.takeWhile_append_dropWhile (p := fun entry => entry.isTranslated)
      (l := pipeline.translationStash)]
    rw [List.map_append, List.map_congr_left early, List.map_id']
  rw [split, List.append_assoc]
  apply List.Perm.append_left
  generalize pipeline.translationStash.dropWhile (fun entry => entry.isTranslated) = waiting
  have parted := (List.filter_append_perm (matchesVpage config packet) waiting).symm.map
    (translated config packet)
  rw [List.map_append] at parted
  apply parted.trans
  have marked : (waiting.filter (matchesVpage config packet)).map (translated config packet) =
      (waiting.filter (matchesVpage config packet)).map (markTranslated config packet) := by
    apply List.map_congr_left
    intro entry member
    rw [translated, if_pos (List.mem_filter.mp member).2]
  have left : (waiting.filter (fun entry => !matchesVpage config packet entry)).map
      (translated config packet) =
        waiting.filter (fun entry => !matchesVpage config packet entry) := by
    conv_rhs => rw [← List.map_id' (waiting.filter _)]
    apply List.map_congr_left
    intro entry member
    have other := (List.mem_filter.mp member).2
    rw [Bool.not_eq_true'] at other
    rw [translated, other, if_neg Bool.false_ne_true]
  rw [marked, left]

theorem finishTranslation_hands (pipeline : Pipeline config Module) (packet : Response)
    (member : packet ∈ translations) :
    HandsTo translations pipeline (pipeline.finishTranslation packet) := by
  have resolves : Moves (Resolves config translations) (Replies config.toConfig)
      (pipeline.lookups.map (TagLookup.holder config.toConfig) ++ pipeline.recordHolders) []
      (pipeline.lookups.map (fun entry => (translated config packet entry).holder config.toConfig) ++
        pipeline.recordHolders) := by
    apply Moves.resolveEach
    intro entry _member
    unfold translated
    by_cases waits : matchesVpage config packet entry = true
    · rw [if_pos waits]
      exact Or.inr (holder_markTranslated packet entry member waits)
    · rw [if_neg waits]
      exact Or.inl rfl
  refine ⟨[], resolves.after_perm (List.Perm.append_right _ ?_), Sent.nothing _⟩
  have moved := (pipeline.finishTranslation_lookups packet).map (TagLookup.holder config.toConfig)
  rw [List.map_map] at moved
  exact moved

theorem finishTranslations_hands (pipeline : Pipeline config Module)
    (known : ∀ channel, pipeline.lowerTranslate = some channel →
      ∀ packet ∈ channel.returned, packet ∈ translations) :
    HandsTo translations pipeline pipeline.finishTranslations := by
  unfold finishTranslations
  split
  · exact HandsOver.same rfl (List.Perm.refl _)
  · rename_i channel present
    have members := known channel present
    clear present known
    have each : HandsTo translations pipeline (channel.returned.foldl finishTranslation pipeline) := by
      generalize channel.returned = packets at members ⊢
      induction packets generalizing pipeline with
      | nil => exact HandsOver.same rfl (List.Perm.refl _)
      | cons packet rest ih =>
          have first := pipeline.finishTranslation_hands packet (members packet List.mem_cons_self)
          exact first.trans (ih (pipeline.finishTranslation packet)
            (fun other member => members other (List.mem_cons_of_mem packet member)))
    exact each

/-! ### Fills and tag checks -/

theorem fillQueue_hands (hooks : Modules Module) (state last : State config.toConfig Module)
    (queue : List Mshr) (bandwidth count : Nat) (condition : Mshr → Bool)
    (rest : List (Holder Place))
    (ran : State.fillSpan hooks state (Queue.span bandwidth condition queue) = some (count, last)) :
    HandsOver translations state (queue.map (Mshr.holder config.toConfig) ++ rest) last
      ((queue.drop count).map (Mshr.holder config.toConfig) ++ rest) := by
  have within := (State.fillSpan_records hooks state last _ count ran).2
  have split := Queue.span_append_beyond bandwidth condition queue
  have filled : HandsOver translations state _ last _ := fillSpan_hands hooks _ count
    ((Queue.beyond bandwidth condition queue).map (Mshr.holder config.toConfig) ++ rest) ran
  rw [← List.append_assoc, ← List.append_assoc, ← List.map_append, ← List.map_append, split,
    ← List.drop_append_of_le_length within, split] at filled
  exact filled

theorem fillMshrs_hands (hooks : Modules Module) (pipeline next : Pipeline config Module)
    (filled : Nat) (ran : pipeline.fillMshrs hooks = some (filled, next)) :
    HandsTo translations pipeline next := by
  obtain ⟨⟨count, last⟩, fills, same⟩ := Option.map_eq_some_iff.mp ran
  cases same
  obtain ⟨keptMshr, keptWrites⟩ := (State.fillSpan_records hooks _ last _ _ fills).1
  have hands : HandsOver translations _ _ last _ := fillQueue_hands hooks _ last pipeline.mshr _
    filled _
    (pipeline.inflightWrites.map (Mshr.holder config.toConfig) ++
      pipeline.lookups.map (TagLookup.holder config.toConfig)) fills
  refine (hands.before_perm ?_).after_perm ?_
  · unfold holders State.recordHolders
    rw [List.map_append, ← List.append_assoc (List.map _ pipeline.mshr)]
    exact List.perm_append_comm
  · unfold holders State.recordHolders
    dsimp only
    rw [keptMshr, keptWrites, List.map_append, ← List.append_assoc (List.map _ (List.drop _ _))]
    exact List.perm_append_comm

theorem fillWrites_hands (hooks : Modules Module) (pipeline next : Pipeline config Module)
    (bandwidth : Nat) (ran : pipeline.fillWrites hooks bandwidth = some next) :
    HandsTo translations pipeline next := by
  obtain ⟨⟨count, last⟩, fills, same⟩ := Option.map_eq_some_iff.mp ran
  subst same
  obtain ⟨keptMshr, keptWrites⟩ := (State.fillSpan_records hooks _ last _ _ fills).1
  have hands : HandsOver translations _ _ last _ := fillQueue_hands hooks _ last
    pipeline.inflightWrites _ count _
    (pipeline.lookups.map (TagLookup.holder config.toConfig) ++
      pipeline.mshr.map (Mshr.holder config.toConfig)) fills
  refine (hands.before_perm ?_).after_perm ?_
  · unfold holders State.recordHolders
    rw [List.map_append, ← List.append_assoc]
    exact List.perm_append_comm
  · unfold holders State.recordHolders
    dsimp only
    rw [keptMshr, keptWrites, List.map_append]
    apply List.perm_append_comm.trans
    rw [List.append_assoc]
    exact List.Perm.refl _

theorem performFills_hands (hooks : Modules Module) (pipeline next : Pipeline config Module)
    (ran : pipeline.performFills hooks = some next) : HandsTo translations pipeline next := by
  obtain ⟨⟨filled, middle⟩, mshrs, writes⟩ := Option.bind_eq_some_iff.mp ran
  exact (pipeline.fillMshrs_hands hooks middle filled mshrs).trans
    (middle.fillWrites_hands hooks next _ writes)

theorem performTagChecks_hands (hooks : Modules Module) (pipeline : Pipeline config Module)
    (areLocal : ∀ entry ∈ pipeline.inflightTagCheck, entry.Local) :
    HandsTo translations pipeline (pipeline.performTagChecks hooks) := by
  unfold performTagChecks
  dsimp only
  have split := Queue.span_append_beyond config.maxTag
    (fun entry => isReady pipeline.currentTime entry && entry.isTranslated)
    pipeline.inflightTagCheck
  have holds := Queue.span_holds config.maxTag
    (fun entry => isReady pipeline.currentTime entry && entry.isTranslated)
    pipeline.inflightTagCheck
  have inFlight := (Queue.span_isPrefix config.maxTag
    (fun entry => isReady pipeline.currentTime entry && entry.isTranslated)
    pipeline.inflightTagCheck).subset
  revert split holds inFlight
  generalize Queue.span config.maxTag _ pipeline.inflightTagCheck = checks
  generalize Queue.beyond config.maxTag _ pipeline.inflightTagCheck = others
  intro split holds inFlight
  have translatedAll : ∀ entry ∈ checks, entry.isTranslated = true := by
    intro entry member
    have both := holds entry member
    rw [Bool.and_eq_true] at both
    exact both.2
  have checked : HandsOver translations pipeline.toState
      (checks.map (TagLookup.holder config.toConfig) ++ pipeline.recordHolders) _ _ :=
    Hands.partition (fun state => Sent.nothing state.upperLevels)
      (fun _ _ _ _ _ => Sent.together) (State.tryHit hooks) State.recordHolders
      (TagLookup.holder config.toConfig) checks
      (fun state entry member => tryHit_hands hooks state entry (translatedAll entry member))
      pipeline.toState
  have missed : ∀ entry ∈ (Queue.partition (State.tryHit hooks) pipeline.toState checks).1.2,
      entry ∈ checks := by
    intro entry member
    exact (Queue.partition_perm (State.tryHit hooks) pipeline.toState checks).mem_iff.mp
      (List.mem_append_right _ member)
  revert checked missed
  generalize Queue.partition (State.tryHit hooks) pipeline.toState checks = hits
  intro checked missed
  have recorded : HandsOver translations hits.2
      (hits.1.2.map (TagLookup.holder config.toConfig) ++ hits.2.recordHolders) _ _ :=
    Hands.partition (fun state => Sent.nothing state.upperLevels)
      (fun _ _ _ _ _ => Sent.together) State.doHandleMiss State.recordHolders
      (TagLookup.holder config.toConfig) hits.1.2
      (fun state entry member => doHandleMiss_hands state entry
        (translatedAll entry (missed entry member))
        (areLocal entry (inFlight (missed entry member)))) hits.2
  have both := (checked.trans (fun _ _ _ _ _ => Sent.together) recorded).frame
    ((others ++ pipeline.translationStash).map (TagLookup.holder config.toConfig))
  refine (both.before_perm ?_).after_perm ?_
  · unfold holders lookups
    rw [← split]
    simp only [List.map_append, List.append_assoc]
    apply List.Perm.append_left
    rw [← List.append_assoc]
    exact List.perm_append_comm
  · unfold holders lookups
    simp only [List.map_append, List.append_assoc]
    apply List.Perm.append_left
    rw [← List.append_assoc (List.map _ others)]
    exact List.perm_append_comm

end Pipeline

end ChampSim.Cache

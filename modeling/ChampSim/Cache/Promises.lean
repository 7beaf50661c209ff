/-
What a cache owes to one of the levels above it.

For a block and a level, the requests of the level that ask for a response, the
records that name the level and the responses on their way back to it are
counted together. As long as they are one at most, a cycle keeps their number:
what the cache takes, holds, merges and answers is never lost and never doubled.
-/

import ChampSim.Cache.Ledger
import ChampSim.Cache.CollisionDistinct

set_option autoImplicit false

namespace ChampSim.Cache

/-! ### The promises of a channel -/

section Counts

variable (offsetBits : Nat) (block : BitVec 64)

def Request.asks (request : Request) : Bool :=
  request.responseRequested && decide (request.address.sliceUpper offsetBits = block)

def Response.answers (response : Response) : Bool :=
  decide (response.address.sliceUpper offsetBits = block)

/-- The requests of a channel that ask for a response for a block. -/
def Channel.asked (channel : Channel) : Nat :=
  channel.rq.countP (Request.asks offsetBits block) +
    channel.pq.countP (Request.asks offsetBits block)

/-- The responses for a block that the level above has not seen. -/
def Channel.replied (channel : Channel) : Nat :=
  channel.returned.countP (Response.answers offsetBits block)

def TagLookup.owes (level : Nat) (entry : TagLookup) : Nat :=
  if entry.address.sliceUpper offsetBits = block then entry.toReturn.count level else 0

def Mshr.owes (level : Nat) (entry : Mshr) : Nat :=
  if entry.address.sliceUpper offsetBits = block then entry.toReturn.count level else 0

end Counts

/-- Reads come with a physical address, and writes ask for no response. -/
structure Channel.Plain (channel : Channel) : Prop where
  reads : ∀ request ∈ channel.rq ++ channel.pq, request.isTranslated = true
  writes : ∀ request ∈ channel.wq, request.responseRequested = false

/-- A union of ranges repeats a value no more often than both ranges do. -/
theorem count_setUnion_le (first second : List Nat) (value : Nat) :
    (setUnion first second).count value ≤ first.count value + second.count value := by
  induction first generalizing second with
  | nil => simp [setUnion]
  | cons head rest ih =>
      have split : second.count value =
          (second.takeWhile (fun other => decide (other < head))).count value +
            (second.dropWhile (fun other => decide (other < head))).count value := by
        rw [← List.count_append, List.takeWhile_append_dropWhile]
      unfold setUnion
      dsimp only
      generalize second.dropWhile (fun other => decide (other < head)) = others at *
      have shorter : (if others.head? = some head then others.tail else others).count value ≤
          others.count value := by
        split
        · exact others.tail_sublist.count_le value
        · exact Nat.le_refl _
      have later := ih (if others.head? = some head then others.tail else others)
      rw [List.count_append, List.count_cons, List.count_cons]
      omega

/-- A union of ranges has a value as often as they do, when that is once at most. -/
theorem count_setUnion (first second : List Nat) (value : Nat)
    (few : first.count value + second.count value ≤ 1) :
    (setUnion first second).count value = first.count value + second.count value := by
  have atMost := count_setUnion_le first second value
  by_cases present : value ∈ first ∨ value ∈ second
  · have once := List.count_pos_iff.mpr ((mem_setUnion first second value).mpr present)
    have some : 1 ≤ first.count value + second.count value := by
      rcases present with inFirst | inSecond
      · have here := List.count_pos_iff.mpr inFirst
        omega
      · have here := List.count_pos_iff.mpr inSecond
        omega
    omega
  · rw [not_or] at present
    rw [List.count_eq_zero.mpr present.1, List.count_eq_zero.mpr present.2] at atMost ⊢
    omega

namespace Channel

variable (offsetBits : Nat) (block : BitVec 64)

/-! ### Collisions -/

theorem collisionIndex_found {queue : List Request} {packet : Request} {shamt index : Nat}
    (collides : collisionIndex queue packet shamt = some index) :
    ∃ before other after, queue = before ++ other :: after ∧
      queue.modify index (mergeRequest packet) = before ++ mergeRequest packet other :: after ∧
      other.address.sliceUpper shamt = packet.address.sliceUpper shamt := by
  unfold collisionIndex at collides
  dsimp only at collides
  split at collides
  case h_1 other present =>
    split at collides
    case isTrue =>
      have same := Option.some.inj collides
      rw [same] at present
      obtain ⟨before, after, split, assigned⟩ := Positions.split_at queue index other present
      refine ⟨before, other, after, split, ?_, ?_⟩
      · rw [List.modify_eq_set_getElem?, present]
        exact assigned _
      · obtain ⟨within, isOther⟩ := List.getElem?_eq_some_iff.mp present
        subst same
        have holds := List.findIdx_getElem (w := within)
        rw [isOther] at holds
        exact of_decide_eq_true holds
    case isFalse => cases collides
  case h_2 => cases collides

theorem mergeRequest_asks (source destination : Request)
    (same : destination.address.sliceUpper offsetBits = source.address.sliceUpper offsetBits)
    (few : (destination.asks offsetBits block).toNat + (source.asks offsetBits block).toNat ≤ 1) :
    ((mergeRequest source destination).asks offsetBits block).toNat =
      (destination.asks offsetBits block).toNat + (source.asks offsetBits block).toNat := by
  unfold Request.asks mergeRequest at *
  dsimp only
  rw [same] at few ⊢
  revert few
  cases destination.responseRequested <;> cases source.responseRequested <;>
    cases decide (source.address.sliceUpper offsetBits = block) <;> decide

theorem merged_asks {checked : List Request} {packet : Request} {index : Nat}
    (collides : collisionIndex checked packet offsetBits = some index)
    (few : checked.countP (Request.asks offsetBits block) +
      (packet.asks offsetBits block).toNat ≤ 1) :
    (checked.modify index (mergeRequest packet)).countP (Request.asks offsetBits block) =
      checked.countP (Request.asks offsetBits block) + (packet.asks offsetBits block).toNat := by
  obtain ⟨before, other, after, split, merged, same⟩ := collisionIndex_found collides
  rw [split] at few
  rw [merged, split]
  have cons : ∀ request : Request, (request :: after).countP (Request.asks offsetBits block) =
      after.countP (Request.asks offsetBits block) + (request.asks offsetBits block).toNat := by
    intro request
    rw [List.countP_cons]
    cases request.asks offsetBits block <;> rfl
  simp only [List.countP_append, cons] at few ⊢
  have kept := mergeRequest_asks offsetBits block packet other same (by omega)
  omega

theorem checkReads_asked (wq : List Request) (writeShamt : Nat) (rest : List Request) :
    ∀ checked : List Request,
      checked.countP (Request.asks offsetBits block) +
        rest.countP (Request.asks offsetBits block) ≤ 1 →
      (checkReads wq writeShamt offsetBits checked rest).1.countP
          (Request.asks offsetBits block) +
        (checkReads wq writeShamt offsetBits checked rest).2.countP
          (Response.answers offsetBits block) =
        checked.countP (Request.asks offsetBits block) +
          rest.countP (Request.asks offsetBits block) := by
  induction rest with
  | nil =>
      intro checked few
      rfl
  | cons packet rest ih =>
      intro checked few
      have cons : (packet :: rest).countP (Request.asks offsetBits block) =
          rest.countP (Request.asks offsetBits block) + (packet.asks offsetBits block).toNat := by
        rw [List.countP_cons]
        cases packet.asks offsetBits block <;> rfl
      rw [cons] at few ⊢
      unfold checkReads
      cases forwarded : doCollisionForReturn wq packet writeShamt with
      | some answers =>
          have owed := doCollisionForReturn_owed forwarded
          have counted : answers.countP (Response.answers offsetBits block) =
              (packet.asks offsetBits block).toNat := by
            have named := congrArg (List.countP (fun pair : Address × List Nat =>
              decide (pair.1.sliceUpper offsetBits = block))) owed
            rw [List.countP_map] at named
            refine Eq.trans ?_ (named.trans ?_)
            · rfl
            · unfold Request.asks
              cases packet.responseRequested with
              | true =>
                  rw [if_pos rfl, List.countP_singleton, Bool.true_and]
                  cases decide (packet.address.sliceUpper offsetBits = block) <;> rfl
              | false => rfl
          have later := ih checked (by omega)
          dsimp only
          rw [List.countP_append]
          omega
      | none =>
          dsimp only
          unfold doCollisionForMerge
          cases collides : collisionIndex checked packet offsetBits with
          | some index =>
              have merged := merged_asks offsetBits block collides (by omega)
              have later := ih (checked.modify index (mergeRequest packet)) (by omega)
              dsimp only [Option.map_some]
              omega
          | none =>
              have joined : (checked ++ [{ packet with forwardChecked := true }]).countP
                  (Request.asks offsetBits block) =
                    checked.countP (Request.asks offsetBits block) +
                      (packet.asks offsetBits block).toNat := by
                rw [List.countP_append, List.countP_singleton]
                unfold Request.asks
                cases packet.responseRequested <;>
                  cases decide (packet.address.sliceUpper offsetBits = block) <;> rfl
              have later := ih (checked ++ [{ packet with forwardChecked := true }]) (by omega)
              dsimp only [Option.map_none]
              omega

theorem holds_merged {Holds : Request → Prop} {checked : List Request} {packet : Request}
    {shamt index : Nat} (collides : collisionIndex checked packet shamt = some index)
    (merges : ∀ other, Holds other → Holds (mergeRequest packet other))
    (older : ∀ request ∈ checked, Holds request) :
    ∀ request ∈ checked.modify index (mergeRequest packet), Holds request := by
  obtain ⟨before, other, after, split, merged, -⟩ := collisionIndex_found collides
  rw [split] at older
  rw [merged]
  simp only [List.forall_mem_append, List.forall_mem_cons] at older ⊢
  exact ⟨older.1, merges other older.2.1, older.2.2⟩

theorem checkReads_reads (wq : List Request) (writeShamt readShamt : Nat) (rest : List Request) :
    ∀ checked : List Request, (∀ request ∈ checked ++ rest, request.isTranslated = true) →
      ∀ request ∈ (checkReads wq writeShamt readShamt checked rest).1,
        request.isTranslated = true := by
  induction rest with
  | nil =>
      intro checked plain request member
      exact plain request (List.mem_append_left _ member)
  | cons packet rest ih =>
      intro checked plain
      have here := plain packet (by simp)
      have older : ∀ request ∈ checked, request.isTranslated = true :=
        fun request member => plain request (List.mem_append_left _ member)
      have newer : ∀ request ∈ rest, request.isTranslated = true :=
        fun request member => plain request (by simp [member])
      unfold checkReads
      cases doCollisionForReturn wq packet writeShamt with
      | some answers => exact ih checked (List.forall_mem_append.mpr ⟨older, newer⟩)
      | none =>
          dsimp only
          unfold doCollisionForMerge
          cases collides : collisionIndex checked packet readShamt with
          | some index =>
              have still := holds_merged collides (fun _other translated => translated) older
              exact ih _ (List.forall_mem_append.mpr ⟨still, newer⟩)
          | none =>
              apply ih
              simp only [List.forall_mem_append, List.forall_mem_singleton]
              exact ⟨⟨older, here⟩, newer⟩

theorem checkWq_writes (shamt : Nat) (rest : List Request) :
    ∀ checked : List Request, (∀ request ∈ checked ++ rest, request.responseRequested = false) →
      ∀ request ∈ checkWq shamt checked rest, request.responseRequested = false := by
  induction rest with
  | nil =>
      intro checked plain request member
      exact plain request (List.mem_append_left _ member)
  | cons packet rest ih =>
      intro checked plain
      have here := plain packet (by simp)
      have older : ∀ request ∈ checked, request.responseRequested = false :=
        fun request member => plain request (List.mem_append_left _ member)
      have newer : ∀ request ∈ rest, request.responseRequested = false :=
        fun request member => plain request (by simp [member])
      unfold checkWq doCollisionForMerge
      cases collides : collisionIndex checked packet shamt with
      | some index =>
          have merges : ∀ other : Request, other.responseRequested = false →
              (mergeRequest packet other).responseRequested = false := by
            intro other silent
            unfold mergeRequest
            dsimp only
            rw [silent, here]
            rfl
          have still := holds_merged collides merges older
          exact ih _ (List.forall_mem_append.mpr ⟨still, newer⟩)
      | none =>
          apply ih
          simp only [List.forall_mem_append, List.forall_mem_singleton]
          exact ⟨⟨older, here⟩, newer⟩

theorem checkCollision_asked (matchOffsetBits : Bool) (channel : Channel)
    (few : channel.asked offsetBits block + channel.replied offsetBits block ≤ 1) :
    (checkCollision offsetBits matchOffsetBits channel).asked offsetBits block +
        (checkCollision offsetBits matchOffsetBits channel).replied offsetBits block =
      channel.asked offsetBits block + channel.replied offsetBits block := by
  have split : ∀ queue : List Request, queue.countP (Request.asks offsetBits block) =
      (checkedUpTo queue).countP (Request.asks offsetBits block) +
        (uncheckedFrom queue).countP (Request.asks offsetBits block) := by
    intro queue
    rw [← List.countP_append]
    exact congrArg _ (List.takeWhile_append_dropWhile).symm
  have rq := split channel.rq
  have pq := split channel.pq
  unfold checkCollision asked replied at *
  dsimp only
  generalize checkWq _ (checkedUpTo channel.wq) (uncheckedFrom channel.wq) = wq
  have reads := checkReads_asked offsetBits block wq (if matchOffsetBits then 0 else offsetBits)
    (uncheckedFrom channel.rq) (checkedUpTo channel.rq)
    (by omega)
  have prefetches := checkReads_asked offsetBits block wq
    (if matchOffsetBits then 0 else offsetBits) (uncheckedFrom channel.pq) (checkedUpTo channel.pq)
    (by omega)
  simp only [List.countP_append]
  omega

theorem checkCollision_plain (matchOffsetBits : Bool) (channel : Channel)
    (plain : channel.Plain) : (checkCollision offsetBits matchOffsetBits channel).Plain := by
  have whole : ∀ queue : List Request, checkedUpTo queue ++ uncheckedFrom queue = queue :=
    fun queue => List.takeWhile_append_dropWhile
  obtain ⟨reads, prefetches⟩ := List.forall_mem_append.mp plain.reads
  constructor
  · intro request member
    rcases List.mem_append.mp member with inReads | inPrefetches
    · refine checkReads_reads _ _ _ _ _ ?_ request inReads
      rw [whole]
      exact reads
    · refine checkReads_reads _ _ _ _ _ ?_ request inPrefetches
      rw [whole]
      exact prefetches
  · apply checkWq_writes
    rw [whole]
    exact plain.writes

end Channel

/-! ### The promises of the records -/

theorem respondLevels_queues {levels : Nat → Channel} {level : Nat} {channel : Channel}
    (same : ∃ returned, levels level = { channel with returned }) (toReturn : List Nat)
    (response : Response) :
    ∃ returned, respondLevels levels toReturn response level = { channel with returned } := by
  unfold respondLevels
  induction toReturn generalizing levels with
  | nil => exact same
  | cons head rest ih =>
      apply ih
      dsimp only
      obtain ⟨returned, before⟩ := same
      by_cases here : level = head
      · rw [if_pos here, before]
        exact ⟨_, rfl⟩
      · rw [if_neg here]
        exact ⟨returned, before⟩

theorem respondLevels_replied (offsetBits : Nat) (block : BitVec 64) (levels : Nat → Channel)
    (toReturn : List Nat) (response : Response) (level : Nat) :
    (respondLevels levels toReturn response level).replied offsetBits block =
      (levels level).replied offsetBits block +
        if response.address.sliceUpper offsetBits = block then toReturn.count level else 0 := by
  unfold Channel.replied
  rw [respondLevels_returned, List.countP_append, List.countP_replicate]
  unfold Response.answers
  simp only [decide_eq_true_eq]

namespace State

variable {config : Config} {Module : Type} (level : Nat) (block : BitVec 64)

def recordsOwe (state : State config Module) : Nat :=
  ((state.mshr ++ state.inflightWrites).map (Mshr.owes config.offsetBits block level)).sum

def replied (state : State config Module) : Nat :=
  (state.upperLevels level).replied config.offsetBits block

theorem fillSpan_replied (hooks : Modules Module) (queue : List Mshr)
    (state last : State config Module) (count : Nat)
    (ran : fillSpan hooks state queue = some (count, last)) :
    last.replied level block +
        ((queue.drop count).map (Mshr.owes config.offsetBits block level)).sum =
      state.replied level block + (queue.map (Mshr.owes config.offsetBits block level)).sum := by
  induction queue generalizing state count with
  | nil =>
      cases ran
      rfl
  | cons entry rest ih =>
      obtain ⟨⟨filled, next⟩, fill, remaining⟩ := Option.bind_eq_some_iff.mp ran
      have effect := handleFill_effect hooks state next entry filled fill
      cases filled with
      | false =>
          cases remaining
          cases effect with
          | refused => rfl
      | true =>
          obtain ⟨⟨others, reached⟩, filledRest, same⟩ := Option.map_eq_some_iff.mp remaining
          cases same
          have later := ih next others filledRest
          have first : next.replied level block =
              state.replied level block + entry.owes config.offsetBits block level := by
            cases effect with
            | bypassed => exact respondLevels_replied config.offsetBits block _ _ _ level
            | installed => exact respondLevels_replied config.offsetBits block _ _ _ level
          rw [List.drop_succ_cons, List.map_cons, List.sum_cons]
          omega

theorem tryHit_replied (hooks : Modules Module) (state : State config Module)
    (entry : TagLookup) :
    (tryHit hooks state entry).2.recordsOwe level block = state.recordsOwe level block ∧
      (tryHit hooks state entry).2.replied level block +
          (if (tryHit hooks state entry).1 then 0 else entry.owes config.offsetBits block level) =
        state.replied level block + entry.owes config.offsetBits block level := by
  have effect := tryHit_effect hooks state entry
  revert effect
  generalize tryHit hooks state entry = tried
  obtain ⟨hit, next⟩ := tried
  intro effect
  cases effect with
  | missed => exact ⟨rfl, rfl⟩
  | hit => exact ⟨rfl, respondLevels_replied config.offsetBits block _ _ _ level⟩

theorem merge_owes (record : Mshr) (entry : TagLookup) (time : Nat)
    (same : record.address.sliceUpper config.offsetBits =
      entry.address.sliceUpper config.offsetBits)
    (few : record.owes config.offsetBits block level +
      entry.owes config.offsetBits block level ≤ 1) :
    (record.merge (Mshr.ofTagLookup entry time)).owes config.offsetBits block level =
      record.owes config.offsetBits block level + entry.owes config.offsetBits block level := by
  have kept : (record.merge (Mshr.ofTagLookup entry time)).address.sliceUpper config.offsetBits =
      record.address.sliceUpper config.offsetBits :=
    Mshr.merge_block config record (Mshr.ofTagLookup entry time) same
  unfold Mshr.owes TagLookup.owes at *
  rw [kept]
  rw [← same] at few ⊢
  by_cases here : record.address.sliceUpper config.offsetBits = block
  · simp only [if_pos here] at few ⊢
    exact count_setUnion _ _ level few
  · simp only [if_neg here]

theorem doHandleMiss_replied (state : State config Module) (entry : TagLookup)
    (isLocal : entry.prefetchFromThis = true → entry.toReturn = [])
    (few : state.recordsOwe level block + entry.owes config.offsetBits block level ≤ 1) :
    (state.doHandleMiss entry).2.replied level block = state.replied level block ∧
      (state.doHandleMiss entry).2.recordsOwe level block +
          (if (state.doHandleMiss entry).1 then 0 else entry.owes config.offsetBits block level) =
        state.recordsOwe level block + entry.owes config.offsetBits block level := by
  apply state.doHandleMiss_cases entry (fun missed =>
    missed.2.replied level block = state.replied level block ∧
      missed.2.recordsOwe level block +
          (if missed.1 then 0 else entry.owes config.offsetBits block level) =
        state.recordsOwe level block + entry.owes config.offsetBits block level)
  · intro _written
    refine ⟨rfl, ?_⟩
    change (List.map _ (state.mshr ++ (state.inflightWrites ++ [_]))).sum + 0 = _
    rw [← List.append_assoc, List.map_append, List.sum_append]
    rfl
  · intro accepted next step
    cases step with
    | merged cpu simStats before after record split same =>
        refine ⟨rfl, ?_⟩
        unfold recordsOwe at few ⊢
        rw [split] at few ⊢
        simp only [List.append_assoc, List.cons_append, List.map_append, List.map_cons,
          List.sum_append, List.sum_cons] at few ⊢
        have merged := merge_owes level block record entry state.currentTime same (by omega)
        rw [if_true]
        omega
    | refused cpu => exact ⟨rfl, rfl⟩
    | forwarded cpu simStats lowerLevel fresh room sent =>
        refine ⟨rfl, ?_⟩
        unfold recordsOwe
        rw [if_pos rfl]
        cases asked : asksResponse entry with
        | true =>
            simp only [if_true, List.append_assoc, List.map_append, List.sum_append,
              List.map_singleton, List.sum_singleton]
            change _ + (entry.owes config.offsetBits block level + _) + 0 = _
            omega
        | false =>
            have mine : entry.prefetchFromThis = true := by
              unfold asksResponse at asked
              cases prefetched : entry.prefetchFromThis with
              | true => rfl
              | false =>
                  rw [prefetched] at asked
                  cases asked
            have none : entry.owes config.offsetBits block level = 0 := by
              unfold TagLookup.owes
              rw [isLocal mine]
              exact ite_self 0
            rw [none]
            rfl

end State

namespace Pipeline

variable {config : OperateConfig} {Module : Type}

section Levels

variable (level : Nat) (block : BitVec 64)

/-- What the packets on their way to a tag check owe a level. -/
def lookupsOwe (pipeline : Pipeline config Module) : Nat :=
  (pipeline.lookups.map (TagLookup.owes config.offsetBits block level)).sum

def owed (pipeline : Pipeline config Module) : Nat :=
  (pipeline.upperLevels level).asked config.offsetBits block + pipeline.lookupsOwe level block +
    pipeline.recordsOwe level block

/-- A level is owed or has been sent a number of responses for a block. -/
structure Promises (total : Nat) (pipeline : Pipeline config Module) : Prop where
  balance : pipeline.owed level block + pipeline.replied level block = total
  plain : (pipeline.upperLevels level).Plain
  physical : ∀ entry ∈ pipeline.lookups, level ∈ entry.toReturn → entry.isTranslated = true

end Levels

variable {level total : Nat} {block : BitVec 64} {before after : Pipeline config Module}

theorem Promises.same (promises : before.Promises level block total)
    (channel : after.upperLevels level = before.upperLevels level)
    (records : after.recordsOwe level block = before.recordsOwe level block)
    (lookups : after.lookupsOwe level block = before.lookupsOwe level block)
    (physical : ∀ entry ∈ after.lookups, level ∈ entry.toReturn → entry.isTranslated = true) :
    after.Promises level block total := by
  refine ⟨?_, channel ▸ promises.plain, physical⟩
  rw [← promises.balance]
  unfold owed State.replied
  rw [channel, records, lookups]

theorem physical_of_map (entries : List TagLookup) {others : List TagLookup}
    (same : others.map (fun entry => (entry.toReturn, entry.isTranslated)) =
      entries.map (fun entry => (entry.toReturn, entry.isTranslated)))
    (physical : ∀ entry ∈ entries, level ∈ entry.toReturn → entry.isTranslated = true) :
    ∀ entry ∈ others, level ∈ entry.toReturn → entry.isTranslated = true := by
  apply (List.forall_mem_map (f := fun entry : TagLookup => (entry.toReturn, entry.isTranslated))
    (P := fun view => level ∈ view.1 → view.2 = true)).mp
  rw [same]
  exact List.forall_mem_map.mpr physical

/-! ### Returns, translations and fills -/

theorem checkCollisions_promises (bits : config.upperOffsetBits level = config.offsetBits)
    (few : total ≤ 1) (pipeline : Pipeline config Module)
    (promises : pipeline.Promises level block total) :
    pipeline.checkCollisions.Promises level block total := by
  unfold checkCollisions
  generalize pipeline.upperOrder = order
  induction order generalizing pipeline with
  | nil => exact promises
  | cons other rest ih =>
      apply ih
      by_cases same : level = other
      · subst same
        have channel : (pipeline.updateUpper level (Channel.checkCollision
            (config.upperOffsetBits level) (config.upperMatchOffset level))).upperLevels level =
              Channel.checkCollision config.offsetBits (config.upperMatchOffset level)
                (pipeline.upperLevels level) := by
          unfold updateUpper
          rw [bits]
          exact if_pos rfl
        have balance := promises.balance
        unfold owed State.replied at balance
        have kept := Channel.checkCollision_asked config.offsetBits block
          (config.upperMatchOffset level) (pipeline.upperLevels level) (by omega)
        refine ⟨?_, ?_, promises.physical⟩
        · unfold owed State.replied
          rw [channel]
          change _ + pipeline.lookupsOwe level block + pipeline.recordsOwe level block + _ = _
          omega
        · rw [channel]
          exact Channel.checkCollision_plain _ _ _ promises.plain
      · exact promises.same (if_neg same) rfl rfl promises.physical

theorem finishPacket_owe (state next : State config.toConfig Module) (packet : Response)
    (ran : state.finishPacket packet = some next) :
    next.recordsOwe level block = state.recordsOwe level block := by
  obtain ⟨front, entry, back, promise, split, moved⟩ := state.finishPacket_effect next packet ran
  have writes : next.inflightWrites = state.inflightWrites := by
    rw [state.finishPacket_withMshr next packet ran]
    rfl
  have sums := (moved.map (Mshr.owes config.offsetBits block level)).sum_eq
  unfold State.recordsOwe
  rw [writes, List.map_append, List.map_append, List.sum_append, List.sum_append, sums, split]
  simp only [List.map_append, List.map_cons]
  rfl

theorem finishPackets_promises (pipeline next : Pipeline config Module)
    (promises : pipeline.Promises level block total)
    (ran : pipeline.finishPackets = some next) : next.Promises level block total := by
  obtain ⟨state, finished, same⟩ := Option.map_eq_some_iff.mp ran
  obtain ⟨levels, owe⟩ := Queue.foldlM_invariant State.finishPacket
    (fun reached => reached.upperLevels = pipeline.upperLevels ∧
      reached.recordsOwe level block = pipeline.recordsOwe level block) pipeline.lowerLevel.returned
    (fun reached packet _member last earlier step => by
      refine ⟨?_, (finishPacket_owe reached last packet step).trans earlier.2⟩
      rw [reached.finishPacket_withMshr last packet step]
      exact earlier.1) pipeline.toState state ⟨rfl, rfl⟩ finished
  subst same
  exact promises.same (congrFun levels level) owe rfl promises.physical

theorem finishTranslation_promises (packet : Response) (pipeline : Pipeline config Module)
    (promises : pipeline.Promises level block total) :
    (pipeline.finishTranslation packet).Promises level block total := by
  have moved := pipeline.finishTranslation_lookups packet
  refine promises.same rfl rfl ?_ ?_
  · unfold lookupsOwe
    rw [← (moved.map _).sum_eq, List.map_map]
    apply congrArg
    apply List.map_congr_left
    intro entry member
    rw [Function.comp_apply, translated]
    split
    · rename_i waits
      have untranslated := (Bool.and_eq_true_iff.mp waits).2
      have unnamed : level ∉ entry.toReturn := by
        intro named
        rw [promises.physical entry member named] at untranslated
        cases untranslated
      have none := List.count_eq_zero.mpr unnamed
      unfold TagLookup.owes markTranslated
      rw [none, ite_self, ite_self]
    · rfl
  · intro entry member named
    obtain ⟨older, present, same⟩ := List.mem_map.mp (moved.mem_iff.mpr member)
    subst same
    unfold translated at named ⊢
    split
    · rfl
    · rename_i others
      rw [if_neg others] at named
      exact promises.physical older present named

theorem finishTranslations_promises (pipeline : Pipeline config Module)
    (promises : pipeline.Promises level block total) :
    pipeline.finishTranslations.Promises level block total :=
  finishTranslations_invariant (fun reached => reached.Promises level block total)
    (fun reached packet earlier => finishTranslation_promises packet reached earlier)
    (fun _reached _lowerTranslate earlier => earlier.same rfl rfl rfl earlier.physical)
    pipeline promises

theorem fillQueue_replied (level : Nat) (block : BitVec 64) (hooks : Modules Module)
    (state last : State config.toConfig Module)
    (queue : List Mshr) (bandwidth count : Nat) (condition : Mshr → Bool)
    (ran : State.fillSpan hooks state (Queue.span bandwidth condition queue) = some (count, last)) :
    last.replied level block +
        ((queue.drop count).map (Mshr.owes config.offsetBits block level)).sum =
      state.replied level block + (queue.map (Mshr.owes config.offsetBits block level)).sum := by
  have within := (State.fillSpan_records hooks state last _ count ran).2
  have spent := State.fillSpan_replied level block hooks _ state last count ran
  have split := Queue.span_append_beyond bandwidth condition queue
  have dropped : (_ ++ Queue.beyond bandwidth condition queue).drop count = _ :=
    List.drop_append_of_le_length within
  rw [split] at dropped
  have sums := congrArg
    (fun items => (items.map (Mshr.owes config.offsetBits block level)).sum) split
  rw [List.map_append, List.sum_append] at sums
  rw [dropped, List.map_append, List.sum_append]
  omega

theorem performFills_channel (level : Nat) (hooks : Modules Module)
    (pipeline next : Pipeline config Module) (ran : pipeline.performFills hooks = some next) :
    ∃ returned, next.upperLevels level = { pipeline.upperLevels level with returned } := by
  apply performFills_invariant hooks (fun state => ∃ returned,
    state.upperLevels level = { pipeline.upperLevels level with returned }) pipeline next
  · intro state entry _member filled last earlier effect
    cases effect with
    | refused => exact earlier
    | bypassed => exact respondLevels_queues earlier _ _
    | installed => exact respondLevels_queues earlier _ _
  · intro state mshr inflightWrites earlier
    exact earlier
  · exact ⟨(pipeline.upperLevels level).returned, rfl⟩
  · exact ran

theorem performFills_promises (hooks : Modules Module) (pipeline next : Pipeline config Module)
    (promises : pipeline.Promises level block total)
    (ran : pipeline.performFills hooks = some next) : next.Promises level block total := by
  obtain ⟨returned, channel⟩ := performFills_channel level hooks pipeline next ran
  have lookups : next.lookups = pipeline.lookups := by
    rw [performFills_shape hooks pipeline next ran]
    rfl
  have answered : next.recordsOwe level block + next.replied level block =
      pipeline.recordsOwe level block + pipeline.replied level block := by
    obtain ⟨⟨filled, middle⟩, mshrs, writes⟩ := Option.bind_eq_some_iff.mp ran
    obtain ⟨⟨count, reached⟩, first, isMiddle⟩ := Option.map_eq_some_iff.mp mshrs
    cases isMiddle
    obtain ⟨⟨written, last⟩, second, isNext⟩ := Option.map_eq_some_iff.mp writes
    subst isNext
    obtain ⟨keptMshr, keptWrites⟩ := (State.fillSpan_records hooks _ reached _ _ first).1
    obtain ⟨laterMshr, laterWrites⟩ := (State.fillSpan_records hooks _ last _ _ second).1
    have fromMshr := fillQueue_replied level block hooks _ _ _ _ _ _ first
    have fromWrites := fillQueue_replied level block hooks _ _ _ _ _ _ second
    dsimp only at laterMshr laterWrites fromWrites
    change ((last.mshr ++ last.inflightWrites.drop written).map _).sum +
      last.replied level block = _
    rw [laterMshr, laterWrites, keptMshr, keptWrites]
    rw [keptWrites] at fromWrites
    change _ = reached.replied level block + _ at fromWrites
    unfold State.recordsOwe
    simp only [List.map_append, List.sum_append]
    omega
  refine ⟨?_, ?_, lookups ▸ promises.physical⟩
  · have balance := promises.balance
    unfold owed lookupsOwe at balance ⊢
    rw [lookups]
    have asked : (next.upperLevels level).asked config.offsetBits block =
        (pipeline.upperLevels level).asked config.offsetBits block := by
      rw [channel]
      rfl
    omega
  · rw [channel]
    exact ⟨promises.plain.reads, promises.plain.writes⟩

theorem serveReturns_promises (bits : config.upperOffsetBits level = config.offsetBits)
    (few : total ≤ 1) (hooks : CycleModules Module) (pipeline next : Pipeline config Module)
    (promises : pipeline.Promises level block total)
    (ran : pipeline.serveReturns hooks = some next) : next.Promises level block total := by
  obtain ⟨finished, finishes, fills⟩ := Option.bind_eq_some_iff.mp ran
  have collided := checkCollisions_promises bits few pipeline promises
  have returned := finishPackets_promises _ finished collided finishes
  exact performFills_promises hooks.toModules _ next (finishTranslations_promises finished returned)
    fills

/-! ### New tag checks -/

theorem restartStash_promises (pipeline : Pipeline config Module)
    (promises : pipeline.Promises level block total) :
    pipeline.restartStash.pipeline.Promises level block total := by
  have owe := pipeline.restartStash_view (TagLookup.owes config.offsetBits block level)
    (fun _entry => rfl)
  have view := pipeline.restartStash_view (fun entry => (entry.toReturn, entry.isTranslated))
    (fun _entry => rfl)
  exact promises.same rfl rfl (congrArg List.sum owe) (physical_of_map _ view promises.physical)

theorem taken_owe (level : Nat) (block : BitVec 64) (pipeline : Pipeline config Module)
    (source : Nat) (requests : List Request) :
    ((requests.map (pipeline.initiateRequest source)).map
        (TagLookup.owes config.offsetBits block level)).sum =
      if source = level then requests.countP (Request.asks config.offsetBits block) else 0 := by
  induction requests with
  | nil => exact (ite_self 0).symm
  | cons request rest ih =>
      rw [List.map_cons, List.map_cons, List.sum_cons, ih, List.countP_cons]
      have first : (pipeline.initiateRequest source request).owes config.offsetBits block level =
          if source = level then (request.asks config.offsetBits block).toNat else 0 := by
        change (if request.address.sliceUpper config.offsetBits = block then
          List.count level (if request.responseRequested then [source] else []) else 0) = _
        unfold Request.asks
        by_cases same : source = level
        · subst same
          cases request.responseRequested <;>
            by_cases here : request.address.sliceUpper config.offsetBits = block <;> simp [here]
        · cases request.responseRequested <;> simp [same]
      rw [first]
      by_cases same : source = level
      · simp only [if_pos same]
        cases request.asks config.offsetBits block with
        | false => rw [Bool.toNat_false, if_neg Bool.false_ne_true, Nat.zero_add, Nat.add_zero]
        | true => rw [Bool.toNat_true, if_pos rfl, Nat.add_comm]
      · simp only [if_neg same]

theorem plain_withQueue {channel : Channel} (plain : channel.Plain) (name : QueueName)
    (fewer : List Request) (among : fewer ⊆ channel.queue name) :
    (channel.withQueue fewer name).Plain := by
  obtain ⟨reads, prefetches⟩ := List.forall_mem_append.mp plain.reads
  cases name with
  | wq => exact ⟨plain.reads, fun request member => plain.writes request (among member)⟩
  | rq =>
      exact ⟨List.forall_mem_append.mpr
        ⟨fun request member => reads request (among member), prefetches⟩, plain.writes⟩
  | pq =>
      exact ⟨List.forall_mem_append.mpr
        ⟨reads, fun request member => prefetches request (among member)⟩, plain.writes⟩

theorem asked_withQueue (offsetBits : Nat) (block : BitVec 64) {channel : Channel}
    (plain : channel.Plain) (name : QueueName) (taken left : List Request)
    (split : taken ++ left = channel.queue name) :
    (channel.withQueue left name).asked offsetBits block +
        taken.countP (Request.asks offsetBits block) =
      channel.asked offsetBits block := by
  have counted := congrArg (List.countP (Request.asks offsetBits block)) split
  rw [List.countP_append] at counted
  cases name with
  | wq =>
      have none : taken.countP (Request.asks offsetBits block) = 0 := by
        apply List.countP_eq_zero.mpr
        intro request member asks
        have among : request ∈ channel.queue .wq := split ▸ List.mem_append_left left member
        unfold Request.asks at asks
        rw [plain.writes request among] at asks
        cases asks
      rw [none]
      rfl
  | rq =>
      change left.countP _ + channel.pq.countP _ + _ = channel.rq.countP _ + channel.pq.countP _
      change _ = channel.rq.countP _ at counted
      omega
  | pq =>
      change channel.rq.countP _ + left.countP _ + _ = channel.rq.countP _ + channel.pq.countP _
      change _ = channel.pq.countP _ at counted
      omega

theorem queue_physical {channel : Channel} (plain : channel.Plain) (name : QueueName)
    (request : Request) (member : request ∈ channel.queue name)
    (asked : request.responseRequested = true) : request.isTranslated = true := by
  cases name with
  | wq =>
      rw [plain.writes request member] at asked
      cases asked
  | rq => exact plain.reads request (List.mem_append_left _ member)
  | pq => exact plain.reads request (List.mem_append_right _ member)

theorem takeRequests_promises (avail : Bool) (perUpper : Nat) (intake : Intake config Module)
    (source : Nat × QueueName) (promises : intake.pipeline.Promises level block total) :
    (takeRequests avail perUpper intake source).pipeline.Promises level block total := by
  have split := Queue.span_append_beyond (min perUpper intake.remaining)
    (fun request : Request => avail || request.isTranslated)
    ((intake.pipeline.upperLevels source.1).queue source.2)
  unfold takeRequests
  dsimp only
  revert split
  generalize Queue.span _ _ ((intake.pipeline.upperLevels source.1).queue source.2) = requests
  generalize Queue.beyond _ _ ((intake.pipeline.upperLevels source.1).queue source.2) = left
  intro split
  have balance := promises.balance
  have owe := taken_owe level block intake.pipeline source.1 requests
  have joined : (((intake.pipeline.inflightTagCheck ++
      requests.map (intake.pipeline.initiateRequest source.1)) ++
        intake.pipeline.translationStash).map (TagLookup.owes config.offsetBits block level)).sum =
          intake.pipeline.lookupsOwe level block +
            if source.1 = level then requests.countP (Request.asks config.offsetBits block)
            else 0 := by
    unfold lookupsOwe lookups
    simp only [List.map_append, List.sum_append, owe]
    omega
  have physical : ∀ entry ∈ (intake.pipeline.inflightTagCheck ++
      requests.map (intake.pipeline.initiateRequest source.1)) ++ intake.pipeline.translationStash,
        level ∈ entry.toReturn → entry.isTranslated = true := by
    intro entry member named
    rcases List.mem_append.mp member with inFlight | stashed
    · rcases List.mem_append.mp inFlight with older | newer
      · exact promises.physical entry (List.mem_append_left _ older) named
      · obtain ⟨request, among, same⟩ := List.mem_map.mp newer
        subst same
        have here : level ∈ if request.responseRequested then [source.1] else [] := named
        cases asked : request.responseRequested with
        | false =>
            rw [asked] at here
            cases here
        | true =>
            rw [asked, if_pos rfl, List.mem_singleton] at here
            subst here
            exact queue_physical promises.plain source.2 request
              (split ▸ List.mem_append_left _ among) asked
    · exact promises.physical entry (List.mem_append_right _ stashed) named
  by_cases same : level = source.1
  · subst same
    rw [if_pos rfl] at joined
    have channel := asked_withQueue config.offsetBits block promises.plain source.2
      requests left split
    have among : left ⊆ (intake.pipeline.upperLevels source.1).queue source.2 :=
      split ▸ List.subset_append_right requests left
    have plain := plain_withQueue promises.plain source.2 left among
    have replied : ((intake.pipeline.upperLevels source.1).withQueue left source.2).replied
        config.offsetBits block =
          (intake.pipeline.upperLevels source.1).replied config.offsetBits block := by
      cases source.2 <;> rfl
    have updated : (intake.pipeline.updateUpper source.1
        (fun channel => channel.withQueue left source.2)).upperLevels source.1 =
          (intake.pipeline.upperLevels source.1).withQueue left source.2 := if_pos rfl
    refine ⟨?_, ?_, physical⟩
    · unfold owed State.replied at balance
      unfold owed lookupsOwe lookups State.replied
      dsimp only
      rw [updated, replied]
      change _ + (List.map _ (_ ++ intake.pipeline.translationStash)).sum +
        intake.pipeline.recordsOwe source.1 block + _ = _
      rw [joined]
      omega
    · dsimp only
      rw [updated]
      exact plain
  · rw [if_neg (fun equal => same equal.symm), Nat.add_zero] at joined
    exact promises.same (if_neg same) rfl joined physical

theorem takeInternal_promises (avail : Bool) (intake : Intake config Module)
    (own : intake.pipeline.Own) (promises : intake.pipeline.Promises level block total) :
    (takeInternal avail intake).pipeline.Promises level block total := by
  unfold takeInternal
  dsimp only
  have among := (Queue.span_isPrefix intake.remaining
    (fun entry : TagLookup => avail || entry.isTranslated) intake.pipeline.internalPq).subset
  revert among
  generalize Queue.span intake.remaining _ intake.pipeline.internalPq = prefetches
  intro among
  have unnamed : ∀ entry ∈ prefetches.map intake.pipeline.initiateTagCheck,
      entry.toReturn = [] := by
    intro entry member
    obtain ⟨asked, present, same⟩ := List.mem_map.mp member
    rw [← same]
    exact (own asked (among present)).2.1
  have none : ((prefetches.map intake.pipeline.initiateTagCheck).map
      (TagLookup.owes config.offsetBits block level)).sum = 0 := by
    apply List.sum_eq_zero
    intro count member
    obtain ⟨entry, present, same⟩ := List.mem_map.mp member
    rw [← same, TagLookup.owes, unnamed entry present]
    exact ite_self 0
  refine promises.same rfl rfl ?_ ?_
  · unfold lookupsOwe lookups
    simp only [List.map_append, List.sum_append, none]
    omega
  · intro entry member named
    rcases List.mem_append.mp member with inFlight | stashed
    · rcases List.mem_append.mp inFlight with older | newer
      · exact promises.physical entry (List.mem_append_left _ older) named
      · rw [unnamed entry newer] at named
        cases named
    · exact promises.physical entry (List.mem_append_right _ stashed) named

theorem initiateTagChecks_promises (pipeline : Pipeline config Module) (own : pipeline.Own)
    (promises : pipeline.Promises level block total) :
    pipeline.initiateTagChecks.pipeline.Promises level block total := by
  have restarted := restartStash_promises pipeline promises
  have rotated : (rotateUpper pipeline.restartStash).pipeline.Promises level block total :=
    restarted.same rfl rfl rfl restarted.physical
  obtain ⟨taken, stillOwn⟩ := takeFromUpper_invariant
    (decide (pipeline.translationStash.length < config.mshrSize))
    (fun intake => intake.pipeline.Promises level block total ∧ intake.pipeline.Own)
    (fun perUpper intake source earlier =>
      ⟨takeRequests_promises _ perUpper intake source earlier.1, earlier.2⟩)
    (rotateUpper pipeline.restartStash) ⟨rotated, own⟩
  exact takeInternal_promises _ _ stillOwn taken

/-! ### Tag checks -/

theorem issueTranslations_promises (pipeline next : Pipeline config Module)
    (promises : pipeline.Promises level block total)
    (ran : pipeline.issueTranslations = some next) : next.Promises level block total := by
  obtain ⟨oweChecks, oweStash⟩ := issueTranslations_view
    (TagLookup.owes config.offsetBits block level) (fun _ _ => rfl) ran
  obtain ⟨viewChecks, viewStash⟩ := issueTranslations_view
    (fun entry => (entry.toReturn, entry.isTranslated)) (fun _ _ => rfl) ran
  obtain ⟨checks, stash, channel, same⟩ := issueTranslations_shape pipeline next ran
  have levels : next.upperLevels = pipeline.upperLevels := by rw [same]
  have records : next.recordsOwe level block = pipeline.recordsOwe level block := by rw [same]
  refine promises.same (congrFun levels level) records ?_ ?_
  · unfold lookupsOwe lookups
    rw [List.map_append, List.map_append, oweChecks, oweStash]
  · apply physical_of_map pipeline.lookups ?_ promises.physical
    unfold lookups
    rw [List.map_append, List.map_append, viewChecks, viewStash]

theorem stashUntranslated_promises (pipeline : Pipeline config Module)
    (promises : pipeline.Promises level block total) :
    pipeline.stashUntranslated.Promises level block total := by
  have moved := pipeline.stashUntranslated_lookups
  refine promises.same rfl rfl (moved.map _).symm.sum_eq ?_
  intro entry member
  exact promises.physical entry (moved.mem_iff.mpr member)

theorem performTagChecks_channel (level : Nat) (hooks : Modules Module)
    (pipeline : Pipeline config Module) :
    ∃ returned, (pipeline.performTagChecks hooks).upperLevels level =
      { pipeline.upperLevels level with returned } := by
  apply performTagChecks_invariant hooks (fun state => ∃ returned,
    state.upperLevels level = { pipeline.upperLevels level with returned }) pipeline
  · intro state handlePkt accepted next earlier effect
    cases effect with
    | missed => exact earlier
    | hit => exact respondLevels_queues earlier _ _
  · intro state handlePkt earlier
    apply state.doHandleMiss_cases handlePkt (fun missed => ∃ returned,
      missed.2.upperLevels level = { pipeline.upperLevels level with returned })
    · intro _written
      exact earlier
    · intro accepted next step
      cases step with
      | merged => exact earlier
      | refused => exact earlier
      | forwarded => exact earlier
  · exact ⟨(pipeline.upperLevels level).returned, rfl⟩

theorem performTagChecks_promises (few : total ≤ 1) (hooks : Modules Module)
    (pipeline : Pipeline config Module)
    (areLocal : ∀ entry ∈ pipeline.inflightTagCheck, entry.Local)
    (promises : pipeline.Promises level block total) :
    (pipeline.performTagChecks hooks).Promises level block total := by
  obtain ⟨returned, channel⟩ := performTagChecks_channel level hooks pipeline
  have asked : ((pipeline.performTagChecks hooks).upperLevels level).asked config.offsetBits block =
      (pipeline.upperLevels level).asked config.offsetBits block := by
    rw [channel]
    rfl
  have plain : ((pipeline.performTagChecks hooks).upperLevels level).Plain := by
    rw [channel]
    exact ⟨promises.plain.reads, promises.plain.writes⟩
  have balance := promises.balance
  unfold owed lookupsOwe lookups at balance
  revert asked plain
  unfold performTagChecks
  dsimp only
  have split := Queue.span_append_beyond config.maxTag
    (fun entry => isReady pipeline.currentTime entry && entry.isTranslated)
    pipeline.inflightTagCheck
  have inFlight := (Queue.span_isPrefix config.maxTag
    (fun entry => isReady pipeline.currentTime entry && entry.isTranslated)
    pipeline.inflightTagCheck).subset
  revert split inFlight
  generalize Queue.span config.maxTag _ pipeline.inflightTagCheck = checks
  generalize Queue.beyond config.maxTag _ pipeline.inflightTagCheck = others
  intro split inFlight
  rw [← split] at balance
  simp only [List.map_append, List.sum_append] at balance
  have tried := Queue.partition_perm (State.tryHit hooks) pipeline.toState checks
  have hits := Queue.partition_conserves (State.tryHit hooks)
    (fun state => state.recordsOwe level block + state.replied level block)
    (TagLookup.owes config.offsetBits block level) total checks
    (fun state entry _member _few => by
      obtain ⟨records, sent⟩ := State.tryHit_replied level block hooks state entry
      omega) pipeline.toState (by omega)
  have missed : ∀ entry ∈ (Queue.partition (State.tryHit hooks) pipeline.toState checks).1.2,
      entry ∈ checks := by
    intro entry member
    exact tried.mem_iff.mp (List.mem_append_right _ member)
  revert hits missed
  generalize Queue.partition (State.tryHit hooks) pipeline.toState checks = hit
  intro hits missed
  have misses := Queue.partition_conserves State.doHandleMiss
    (fun state => state.recordsOwe level block + state.replied level block)
    (TagLookup.owes config.offsetBits block level) total hit.1.2
    (fun state entry member atMost => by
      obtain ⟨records, sent⟩ := state.doHandleMiss_replied level block entry
        (areLocal entry (inFlight (missed entry member))) (by omega)
      omega) hit.2 (by omega)
  have left : ∀ entry ∈ (Queue.partition State.doHandleMiss hit.2 hit.1.2).1.2,
      entry ∈ checks := by
    intro entry member
    exact missed entry ((Queue.partition_perm State.doHandleMiss hit.2 hit.1.2).mem_iff.mp
      (List.mem_append_right _ member))
  revert misses left
  generalize Queue.partition State.doHandleMiss hit.2 hit.1.2 = miss
  intro misses left asked plain
  refine ⟨?_, plain, ?_⟩
  · unfold owed lookupsOwe lookups
    rw [asked]
    simp only [List.map_append, List.sum_append]
    omega
  · intro entry member
    apply promises.physical entry
    unfold lookups
    rw [← split]
    rcases List.mem_append.mp member with inChecks | stashed
    · rcases List.mem_append.mp inChecks with refused | later
      · exact List.mem_append_left _ (List.mem_append_left _ (left entry refused))
      · exact List.mem_append_left _ (List.mem_append_right _ later)
    · exact List.mem_append_right _ stashed

theorem checkTags_promises (few : total ≤ 1) (hooks : CycleModules Module)
    (pipeline next : Pipeline config Module) (areLocal : ∀ entry ∈ pipeline.lookups, entry.Local)
    (promises : pipeline.Promises level block total)
    (ran : pipeline.checkTags hooks = some next) : next.Promises level block total := by
  obtain ⟨issued, issues, same⟩ := Option.map_eq_some_iff.mp ran
  have translated := issueTranslations_promises pipeline issued promises issues
  have still := (pipeline.issueTranslations_hands [] issued areLocal issues).2
  have stashLocal : ∀ entry ∈ issued.stashUntranslated.inflightTagCheck, entry.Local := by
    intro entry member
    exact still entry (issued.stashUntranslated_lookups.mem_iff.mpr
      (List.mem_append_left _ member))
  have checked := performTagChecks_promises few hooks.toModules issued.stashUntranslated stashLocal
    (stashUntranslated_promises issued translated)
  obtain ⟨added, simStats, modules, _issued, cycled⟩ := prefetcherCycleOperate_shape hooks
    (issued.stashUntranslated.performTagChecks hooks.toModules)
  rw [← same, cycled]
  exact checked.same rfl rfl rfl checked.physical

/-- A cycle keeps the number of responses that a level is owed or has been
sent, when that is one at most. -/
theorem operate_promises (bits : config.upperOffsetBits level = config.offsetBits)
    (few : total ≤ 1) (hooks : CycleModules Module) (pipeline next : Pipeline config Module)
    (silent : pipeline.Silent) (promises : pipeline.Promises level block total)
    (ran : pipeline.operate hooks = some next) : next.Promises level block total := by
  obtain ⟨served, serves, checks⟩ := Option.bind_eq_some_iff.mp ran
  have servedSilent := pipeline.serveReturns_silent hooks served silent serves
  have returned := serveReturns_promises bits few hooks pipeline served promises serves
  have initiated := initiateTagChecks_promises served servedSilent.own returned
  exact checkTags_promises few hooks _ next (served.initiateTagChecks_silent servedSilent).areLocal
    initiated checks

/-- A step that does not change the channel of a level from outside. -/
def LeavesLevel (level : Nat) (pipeline : Pipeline config Module) : Step Module → Prop
  | .upperLevels channels => channels level = pipeline.upperLevels level
  | _ => True

instance (level : Nat) (pipeline : Pipeline config Module) (label : Step Module) :
    Decidable (LeavesLevel level pipeline label) :=
  match label with
  | .upperLevels channels =>
      inferInstanceAs (Decidable (channels level = pipeline.upperLevels level))
  | .operate => .isTrue trivial
  | .lowerQueues _ _ _ => .isTrue trivial
  | .answer _ => .isTrue trivial
  | .translations _ => .isTrue trivial
  | .branchOperate _ _ => .isTrue trivial
  | .beginPhase _ => .isTrue trivial
  | .invalidateEntry _ => .isTrue trivial

theorem step_silent (hooks : CycleModules Module) (pipeline next : Pipeline config Module)
    (label : Step Module) (silent : pipeline.Silent)
    (stepped : pipeline.step hooks label = some next) : next.Silent := by
  cases label with
  | operate =>
      obtain ⟨served, serves, checks⟩ := Option.bind_eq_some_iff.mp stepped
      have begun : ({ pipeline with currentTime := pipeline.currentTime + config.clockPeriod } :
          Pipeline config Module).Silent := ⟨silent.own, silent.areLocal⟩
      exact served.initiateTagChecks.pipeline.checkTags_silent hooks next
        (served.initiateTagChecks_silent (serveReturns_silent hooks _ served begun serves)) checks
  | branchOperate modules calls =>
      obtain ⟨added, simStats, issued, asked⟩ := pipeline.toState.prefetchLines_shape calls
      cases stepped
      rw [asked]
      exact ⟨silent.own.append issued, silent.areLocal⟩
  | invalidateEntry invalAddr =>
      cases stepped
      obtain ⟨block, same⟩ := pipeline.invalidateEntry_shape invalAddr
      rw [same]
      exact ⟨silent.own, silent.areLocal⟩
  | upperLevels channels =>
      cases stepped
      exact ⟨silent.own, silent.areLocal⟩
  | lowerQueues rq pq wq =>
      cases stepped
      exact ⟨silent.own, silent.areLocal⟩
  | answer response =>
      cases stepped
      exact ⟨silent.own, silent.areLocal⟩
  | translations channel =>
      cases stepped
      exact ⟨silent.own, silent.areLocal⟩
  | beginPhase warmup =>
      cases stepped
      exact ⟨silent.own, silent.areLocal⟩

/-- Every step keeps that number, and only the level itself uses its channel otherwise. -/
theorem step_promises (bits : config.upperOffsetBits level = config.offsetBits)
    (few : total ≤ 1) (hooks : CycleModules Module) (pipeline next : Pipeline config Module)
    (label : Step Module) (leaves : LeavesLevel level pipeline label) (silent : pipeline.Silent)
    (promises : pipeline.Promises level block total)
    (stepped : pipeline.step hooks label = some next) : next.Promises level block total := by
  cases label with
  | operate =>
      exact operate_promises bits few hooks
        { pipeline with currentTime := pipeline.currentTime + config.clockPeriod } next
        ⟨silent.own, silent.areLocal⟩ (promises.same rfl rfl rfl promises.physical) stepped
  | upperLevels channels =>
      cases stepped
      exact promises.same leaves rfl rfl promises.physical
  | branchOperate modules calls =>
      obtain ⟨added, simStats, _issued, asked⟩ := pipeline.toState.prefetchLines_shape calls
      cases stepped
      rw [asked]
      exact promises.same rfl rfl rfl promises.physical
  | invalidateEntry invalAddr =>
      cases stepped
      obtain ⟨blocks, same⟩ := pipeline.invalidateEntry_shape invalAddr
      rw [same]
      exact promises.same rfl rfl rfl promises.physical
  | lowerQueues rq pq wq =>
      cases stepped
      exact promises.same rfl rfl rfl promises.physical
  | answer response =>
      cases stepped
      exact promises.same rfl rfl rfl promises.physical
  | translations channel =>
      cases stepped
      exact promises.same rfl rfl rfl promises.physical
  | beginPhase warmup =>
      cases stepped
      exact promises.same rfl rfl rfl promises.physical

end Pipeline

end ChampSim.Cache

/-
What becomes of each request of a queue when the channel checks for collisions.

An account names the fate of every request of a queue in its order. The queue
afterwards holds what stayed, with what was merged into it, and the answers are
those that the forwarded requests ask for.
-/

import ChampSim.Cache.Collision

set_option autoImplicit false

namespace ChampSim.Cache

namespace Channel

/-- A request stays, is merged into the one that ends at a place of the queue,
or is answered from the write queue. -/
inductive Fate where
  | stays
  | merged (place : Nat)
  | forwarded
deriving DecidableEq, Repr

def stayers (accounts : List (Request × Fate)) : List Request :=
  accounts.filterMap (fun account => if account.2 = .stays then some account.1 else none)

/-- The forwarded requests that ask for a response, in their order. -/
def askers (accounts : List (Request × Fate)) : List Request :=
  accounts.filterMap (fun account =>
    if account.2 = .forwarded ∧ account.1.responseRequested = true then some account.1 else none)

/-- A request that stayed speaks for itself and for those merged into it. -/
structure Survives (accounts : List (Request × Fate)) (place : Nat) (packet survivor : Request) :
    Prop where
  same : survivor =
    { packet with
      forwardChecked := true
      responseRequested := survivor.responseRequested
      instrDependOnMe := survivor.instrDependOnMe }
  requested : survivor.responseRequested = true ↔ packet.responseRequested = true ∨
    ∃ other, (other, Fate.merged place) ∈ accounts ∧ other.responseRequested = true
  ids : ∀ id, id ∈ survivor.instrDependOnMe ↔ id ∈ packet.instrDependOnMe ∨
    ∃ other, (other, Fate.merged place) ∈ accounts ∧ id ∈ other.instrDependOnMe

structure Accounted (accounts : List (Request × Fate)) (after : List Request)
    (answers : List Response) : Prop where
  count : after.length = (stayers accounts).length
  survives : ∀ place packet survivor, (stayers accounts)[place]? = some packet →
    after[place]? = some survivor → Survives accounts place packet survivor
  earlier : ∀ index other place, accounts[index]? = some (other, Fate.merged place) →
    place < (stayers (accounts.take index)).length
  answered : answers.map (fun answer => (answer.address, answer.instrDependOnMe)) =
    (askers accounts).map (fun packet => (packet.address, packet.instrDependOnMe))

theorem stayers_append (accounts more : List (Request × Fate)) :
    stayers (accounts ++ more) = stayers accounts ++ stayers more :=
  List.filterMap_append

theorem askers_append (accounts more : List (Request × Fate)) :
    askers (accounts ++ more) = askers accounts ++ askers more :=
  List.filterMap_append

namespace Survives

variable {accounts : List (Request × Fate)} {place : Nat} {packet survivor : Request}

theorem append (survives : Survives accounts place packet survivor) (next : Request × Fate)
    (apart : next.2 ≠ .merged place) : Survives (accounts ++ [next]) place packet survivor := by
  have mergedSame : ∀ other, (other, Fate.merged place) ∈ accounts ++ [next] ↔
      (other, Fate.merged place) ∈ accounts := by
    intro other
    rw [List.mem_append, List.mem_singleton]
    constructor
    · rintro (member | newest)
      · exact member
      · exact absurd (congrArg Prod.snd newest).symm apart
    · exact Or.inl
  refine ⟨survives.same, ?_, ?_⟩
  · simp only [mergedSame]
    exact survives.requested
  · simp only [mergedSame]
    exact survives.ids

theorem merge (survives : Survives accounts place packet survivor) (source : Request) :
    Survives (accounts ++ [(source, .merged place)]) place packet
      (mergeRequest source survivor) := by
  have mergedToo : ∀ other, (other, Fate.merged place) ∈ accounts ++ [(source, .merged place)] ↔
      (other, Fate.merged place) ∈ accounts ∨ other = source := by
    intro other
    rw [List.mem_append, List.mem_singleton, Prod.mk.injEq]
    simp
  refine ⟨?_, ?_, ?_⟩
  · have same := survives.same
    unfold mergeRequest
    rw [same]
  · change (survivor.responseRequested || source.responseRequested) = true ↔ _
    rw [Bool.or_eq_true, survives.requested]
    simp only [mergedToo, or_and_right, exists_or, exists_eq_left, or_assoc]
  · intro id
    change id ∈ setUnion survivor.instrDependOnMe source.instrDependOnMe ↔ _
    rw [mem_setUnion, survives.ids]
    simp only [mergedToo, or_and_right, exists_or, exists_eq_left, or_assoc]

end Survives

namespace Accounted

variable {accounts : List (Request × Fate)} {after : List Request} {answers : List Response}

/-- The place of a later merge is still behind everything that it names. -/
private theorem earlier_append (accounted : Accounted accounts after answers)
    (next : Request × Fate)
    (behind : ∀ place, next.2 = .merged place → place < (stayers accounts).length) :
    ∀ index other place, (accounts ++ [next])[index]? = some (other, Fate.merged place) →
      place < (stayers ((accounts ++ [next]).take index)).length := by
  intro index other place named
  rcases Nat.lt_or_ge index accounts.length with within | beyond
  · rw [List.getElem?_append_left within] at named
    rw [List.take_append_of_le_length (Nat.le_of_lt within)]
    exact accounted.earlier index other place named
  · rw [List.getElem?_append_right beyond, List.getElem?_singleton] at named
    split at named
    case isFalse => cases named
    case isTrue last =>
      have atEnd : index = accounts.length := by omega
      rw [atEnd, List.take_left]
      exact behind place (congrArg Prod.snd (Option.some.inj named))

theorem no_merged (accounted : Accounted accounts after answers) (place : Nat)
    (beyond : (stayers accounts).length ≤ place) (other : Request) :
    (other, Fate.merged place) ∉ accounts := by
  intro member
  obtain ⟨index, within, named⟩ := List.getElem_of_mem member
  have bound := accounted.earlier index other place
    (List.getElem?_eq_some_iff.mpr ⟨within, named⟩)
  have fewer : (stayers (accounts.take index)).length ≤ (stayers accounts).length := by
    have whole := congrArg stayers (List.take_append_drop index accounts)
    rw [← whole, stayers_append, List.length_append]
    exact Nat.le_add_right _ _
  omega

theorem stay (accounted : Accounted accounts after answers) (packet : Request) :
    Accounted (accounts ++ [(packet, .stays)]) (after ++ [{ packet with forwardChecked := true }])
      answers := by
  have stayed : stayers (accounts ++ [(packet, .stays)]) = stayers accounts ++ [packet] :=
    stayers_append _ _
  refine ⟨?_, ?_, ?_, ?_⟩
  · rw [stayed, List.length_append, List.length_append, accounted.count]
    rfl
  · intro place origin survivor placed survived
    rw [stayed] at placed
    rcases Nat.lt_or_ge place (stayers accounts).length with within | beyond
    · rw [List.getElem?_append_left within] at placed
      rw [List.getElem?_append_left (within.trans_eq accounted.count.symm)] at survived
      exact (accounted.survives place origin survivor placed survived).append _ (by simp)
    · rw [List.getElem?_append_right beyond, List.getElem?_singleton] at placed
      rw [List.getElem?_append_right (accounted.count.trans_le beyond), accounted.count,
        List.getElem?_singleton] at survived
      split at placed
      case isFalse => cases placed
      case isTrue last =>
        rw [if_pos last] at survived
        cases placed
        cases survived
        have none : ∀ other, (other, Fate.merged place) ∉ accounts ++ [(packet, .stays)] := by
          intro other member
          rcases List.mem_append.mp member with older | newest
          · exact accounted.no_merged place beyond other older
          · cases List.mem_singleton.mp newest
        exact ⟨rfl, by simp [none], by simp [none]⟩
  · exact accounted.earlier_append _ (fun place impossible => by cases impossible)
  · rw [askers_append, accounted.answered]
    exact congrArg _ (List.append_nil _).symm

theorem forward (accounted : Accounted accounts after answers) (packet : Request)
    (more : List Response)
    (owed : more.map (fun answer => (answer.address, answer.instrDependOnMe)) =
      if packet.responseRequested = true then [(packet.address, packet.instrDependOnMe)] else []) :
    Accounted (accounts ++ [(packet, .forwarded)]) after (answers ++ more) := by
  have stayed : stayers (accounts ++ [(packet, .forwarded)]) = stayers accounts := by
    rw [stayers_append]
    exact List.append_nil _
  refine ⟨?_, ?_, ?_, ?_⟩
  · rw [stayed, accounted.count]
  · intro place origin survivor placed survived
    rw [stayed] at placed
    exact (accounted.survives place origin survivor placed survived).append _ (by simp)
  · exact accounted.earlier_append _ (fun place impossible => by cases impossible)
  · rw [askers_append, List.map_append, List.map_append, accounted.answered, owed]
    cases asks : packet.responseRequested <;> simp [askers, asks]

theorem merge (accounted : Accounted accounts after answers) (packet : Request) (place : Nat)
    (within : place < after.length) :
    Accounted (accounts ++ [(packet, .merged place)])
      (after.modify place (mergeRequest packet)) answers := by
  have stayed : stayers (accounts ++ [(packet, .merged place)]) = stayers accounts := by
    rw [stayers_append]
    exact List.append_nil _
  refine ⟨?_, ?_, ?_, ?_⟩
  · rw [stayed, List.length_modify, accounted.count]
  · intro other origin survivor placed survived
    rw [stayed] at placed
    rw [List.getElem?_modify] at survived
    obtain ⟨old, present, same⟩ := Option.map_eq_some_iff.mp survived
    have kept := accounted.survives other origin old placed present
    by_cases isPlace : place = other
    · rw [if_pos isPlace] at same
      rw [← same, ← isPlace]
      rw [← isPlace] at kept
      exact kept.merge packet
    · rw [if_neg isPlace] at same
      rw [← same]
      exact kept.append _ (fun equal => isPlace (Fate.merged.inj equal))
  · refine accounted.earlier_append _ ?_
    intro named isPlace
    cases isPlace
    exact within.trans_eq accounted.count
  · rw [askers_append, accounted.answered]
    exact congrArg _ (List.append_nil _).symm

theorem start (checked : List Request) (all : ∀ packet ∈ checked, packet.forwardChecked = true) :
    Accounted (checked.map (fun packet => (packet, Fate.stays))) checked [] := by
  have stayed : stayers (checked.map (fun packet => (packet, Fate.stays))) = checked := by
    unfold stayers
    rw [List.filterMap_map]
    exact List.filterMap_some
  have asked : askers (checked.map (fun packet => (packet, Fate.stays))) = [] := by
    unfold askers
    rw [List.filterMap_map]
    apply List.filterMap_eq_nil_iff.mpr
    intro packet _member
    rfl
  have unmerged : ∀ other place, (other, Fate.merged place) ∉
      checked.map (fun packet => (packet, Fate.stays)) := by
    intro other place member
    obtain ⟨packet, _present, same⟩ := List.mem_map.mp member
    cases same
  refine ⟨?_, ?_, ?_, ?_⟩
  · rw [stayed]
  · intro place packet survivor placed survived
    rw [stayed, survived] at placed
    cases placed
    refine ⟨?_, by simp [unmerged], by simp [unmerged]⟩
    have isChecked := all packet (List.mem_of_getElem? survived)
    cases packet
    cases isChecked
    rfl
  · intro index other place named
    exact absurd (List.mem_of_getElem? named) (unmerged other place)
  · rw [asked]
    rfl

end Accounted

theorem collisionIndex_lt {queue : List Request} {packet : Request} {shamt index : Nat}
    (collides : collisionIndex queue packet shamt = some index) : index < queue.length := by
  unfold collisionIndex at collides
  dsimp only at collides
  split at collides
  case h_1 other present =>
    split at collides
    case isTrue =>
      cases collides
      exact (List.getElem?_eq_some_iff.mp present).1
    case isFalse => cases collides
  case h_2 => cases collides

theorem checkWq_accounted (shamt : Nat) (rest : List Request) :
    ∀ (accounts : List (Request × Fate)) (checked : List Request), Accounted accounts checked [] →
      ∃ more : List (Request × Fate), more.map Prod.fst = rest ∧
        (∀ account ∈ more, account.2 ≠ .forwarded) ∧
        Accounted (accounts ++ more) (checkWq shamt checked rest) [] := by
  induction rest with
  | nil =>
      intro accounts checked accounted
      refine ⟨[], rfl, by simp, ?_⟩
      rw [List.append_nil]
      exact accounted
  | cons packet rest continues =>
      intro accounts checked accounted
      unfold checkWq doCollisionForMerge
      cases collides : collisionIndex checked packet shamt with
      | none =>
          obtain ⟨more, same, kept, done⟩ := continues _ _ (accounted.stay packet)
          refine ⟨(packet, .stays) :: more, by rw [List.map_cons, same], ?_, ?_⟩
          · exact List.forall_mem_cons.mpr ⟨Fate.noConfusion, kept⟩
          · rw [List.append_cons]
            exact done
      | some index =>
          obtain ⟨more, same, kept, done⟩ :=
            continues _ _ (accounted.merge packet index (collisionIndex_lt collides))
          refine ⟨(packet, .merged index) :: more, by rw [List.map_cons, same], ?_, ?_⟩
          · exact List.forall_mem_cons.mpr ⟨Fate.noConfusion, kept⟩
          · rw [List.append_cons]
            exact done

theorem doCollisionForReturn_owed {wq : List Request} {packet : Request} {shamt : Nat}
    {answers : List Response} (forwarded : doCollisionForReturn wq packet shamt = some answers) :
    answers.map (fun answer => (answer.address, answer.instrDependOnMe)) =
      if packet.responseRequested = true then [(packet.address, packet.instrDependOnMe)]
      else [] := by
  obtain ⟨index, _collides, answered⟩ := Option.bind_eq_some_iff.mp forwarded
  obtain ⟨destination, _present, same⟩ := Option.map_eq_some_iff.mp answered
  rw [← same]
  cases packet.responseRequested <;> rfl

/-- The loop over the reads or the prefetches accounts for every request. -/
theorem checkReads_accounted (wq : List Request) (writeShamt readShamt : Nat)
    (rest : List Request) :
    ∀ (accounts : List (Request × Fate)) (checked : List Request) (answers : List Response),
      Accounted accounts checked answers →
      ∃ more : List (Request × Fate), more.map Prod.fst = rest ∧
        Accounted (accounts ++ more) (checkReads wq writeShamt readShamt checked rest).1
          (answers ++ (checkReads wq writeShamt readShamt checked rest).2) := by
  induction rest with
  | nil =>
      intro accounts checked answers accounted
      refine ⟨[], rfl, ?_⟩
      rw [List.append_nil]
      change Accounted accounts checked (answers ++ [])
      rw [List.append_nil]
      exact accounted
  | cons packet rest continues =>
      intro accounts checked answers accounted
      unfold checkReads
      cases forwarded : doCollisionForReturn wq packet writeShamt with
      | some more =>
          obtain ⟨later, same, done⟩ := continues _ _ _
            (accounted.forward packet more (doCollisionForReturn_owed forwarded))
          refine ⟨(packet, .forwarded) :: later, by rw [List.map_cons, same], ?_⟩
          rw [List.append_cons]
          rw [List.append_assoc answers] at done
          exact done
      | none =>
          unfold doCollisionForMerge
          cases collides : collisionIndex checked packet readShamt with
          | none =>
              obtain ⟨more, same, done⟩ := continues _ _ _ (accounted.stay packet)
              refine ⟨(packet, .stays) :: more, by rw [List.map_cons, same], ?_⟩
              rw [List.append_cons]
              exact done
          | some index =>
              obtain ⟨more, same, done⟩ :=
                continues _ _ _ (accounted.merge packet index (collisionIndex_lt collides))
              refine ⟨(packet, .merged index) :: more, by rw [List.map_cons, same], ?_⟩
              rw [List.append_cons]
              exact done

theorem checkedUpTo_checked (queue : List Request) :
    ∀ packet ∈ checkedUpTo queue, packet.forwardChecked = true := by
  exact List.all_eq_true.mp List.all_takeWhile

/-- The accounts of a queue begin with the requests that were checked before. -/
private theorem accounts_queue (queue : List Request) (more : List (Request × Fate))
    (same : more.map Prod.fst = uncheckedFrom queue) :
    ((checkedUpTo queue).map (fun packet => (packet, Fate.stays)) ++ more).map Prod.fst =
      queue := by
  rw [List.map_append, List.map_map, same]
  change (checkedUpTo queue).map id ++ _ = queue
  rw [List.map_id]
  exact List.takeWhile_append_dropWhile

/-- Some accounts of a queue lead to what it holds afterwards and to the answers. -/
def Explained (queue after : List Request) (answers : List Response) : Prop :=
  ∃ accounts : List (Request × Fate), accounts.map Prod.fst = queue ∧
    Accounted accounts after answers

def ExplainedByMerges (queue after : List Request) : Prop :=
  ∃ accounts : List (Request × Fate), accounts.map Prod.fst = queue ∧
    (∀ account ∈ accounts, account.2 ≠ .forwarded) ∧ Accounted accounts after []

/-- A check of collisions accounts for every request of the three queues. -/
theorem checkCollision_explained (offsetBits : Nat) (matchOffsetBits : Bool) (channel : Channel) :
    ∃ reads prefetches : List Response,
      (checkCollision offsetBits matchOffsetBits channel).returned =
        channel.returned ++ reads ++ prefetches ∧
      ExplainedByMerges channel.wq (checkCollision offsetBits matchOffsetBits channel).wq ∧
      Explained channel.rq (checkCollision offsetBits matchOffsetBits channel).rq reads ∧
      Explained channel.pq (checkCollision offsetBits matchOffsetBits channel).pq prefetches := by
  refine ⟨_, _, rfl, ?_, ?_, ?_⟩
  · obtain ⟨more, same, merges, accounted⟩ := checkWq_accounted
      (if matchOffsetBits then 0 else offsetBits) (uncheckedFrom channel.wq) _ _
      (Accounted.start _ (checkedUpTo_checked channel.wq))
    refine ⟨_, accounts_queue channel.wq more same, ?_, accounted⟩
    intro account member
    rcases List.mem_append.mp member with before | later
    · obtain ⟨packet, _present, stayed⟩ := List.mem_map.mp before
      rw [← stayed]
      exact Fate.noConfusion
    · exact merges account later
  · obtain ⟨more, same, accounted⟩ := checkReads_accounted
      (checkCollision offsetBits matchOffsetBits channel).wq
      (if matchOffsetBits then 0 else offsetBits) offsetBits (uncheckedFrom channel.rq) _ _ _
      (Accounted.start _ (checkedUpTo_checked channel.rq))
    exact ⟨_, accounts_queue channel.rq more same, accounted⟩
  · obtain ⟨more, same, accounted⟩ := checkReads_accounted
      (checkCollision offsetBits matchOffsetBits channel).wq
      (if matchOffsetBits then 0 else offsetBits) offsetBits (uncheckedFrom channel.pq) _ _ _
      (Accounted.start _ (checkedUpTo_checked channel.pq))
    exact ⟨_, accounts_queue channel.pq more same, accounted⟩

end Channel

end ChampSim.Cache

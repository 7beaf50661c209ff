/-
Which requests of a channel still collide after a check.

A request is compared with the oldest request of its block only, at the first
check after it joined. It stays beside a younger one in its own translation
state when that oldest one is in the other state. A read that was checked before
a write joined is not compared with it.
-/

import ChampSim.Cache.CollisionRuns

set_option autoImplicit false

namespace ChampSim.Cache

namespace Channel

def key (packet : Request) : Address × Bool := (packet.address, packet.isTranslated)

theorem keys_modify (queue : List Request) (index : Nat) (source : Request) :
    (queue.modify index (mergeRequest source)).map key = queue.map key := by
  induction queue generalizing index with
  | nil => cases index <;> rfl
  | cons packet rest ih =>
      cases index with
      | zero => rfl
      | succ index => exact congrArg (key packet :: ·) (ih index)

theorem collisionIndex_key (queue : List Request) (packet other : Request) (shamt : Nat)
    (same : key packet = key other) :
    collisionIndex queue packet shamt = collisionIndex queue other shamt := by
  have address : packet.address = other.address := congrArg Prod.fst same
  have translated : packet.isTranslated = other.isTranslated := congrArg Prod.snd same
  unfold collisionIndex
  rw [address, translated]

/-! ### Hidden collisions -/

/-- The oldest request of the block of a packet is in the other translation state. -/
def Hidden (shamt : Nat) (queue : List Request) (packet : Request) : Prop :=
  ∃ oldest,
    queue.find? (fun other => decide
      (other.address.sliceUpper shamt = packet.address.sliceUpper shamt)) = some oldest ∧
    oldest.isTranslated ≠ packet.isTranslated

def HiddenKey (shamt : Nat) (keys : List (Address × Bool)) (named : Address × Bool) : Prop :=
  ∃ oldest,
    keys.find? (fun other => decide
      (other.1.sliceUpper shamt = named.1.sliceUpper shamt)) = some oldest ∧
    oldest.2 ≠ named.2

theorem hidden_keys (shamt : Nat) (queue : List Request) (packet : Request) :
    Hidden shamt queue packet ↔ HiddenKey shamt (queue.map key) (key packet) := by
  unfold HiddenKey
  rw [List.find?_map]
  constructor
  · rintro ⟨oldest, found, differs⟩
    exact ⟨key oldest, Option.map_eq_some_iff.mpr ⟨oldest, found, rfl⟩, differs⟩
  · rintro ⟨named, found, differs⟩
    obtain ⟨oldest, isOldest, same⟩ := Option.map_eq_some_iff.mp found
    subst same
    exact ⟨oldest, isOldest, differs⟩

theorem collisionIndex_none {queue : List Request} {packet : Request} {shamt : Nat}
    (missed : collisionIndex queue packet shamt = none) (other : Request) (member : other ∈ queue)
    (same : other.address.sliceUpper shamt = packet.address.sliceUpper shamt) :
    Hidden shamt queue packet := by
  unfold collisionIndex at missed
  dsimp only at missed
  rw [← List.find?_eq_getElem?_findIdx] at missed
  cases found : queue.find? (fun other => decide
      (other.address.sliceUpper shamt = packet.address.sliceUpper shamt)) with
  | none => exact absurd (decide_eq_true same) (List.find?_eq_none.mp found other member)
  | some oldest =>
      refine ⟨oldest, found, ?_⟩
      intro equal
      rw [found] at missed
      dsimp only at missed
      rw [if_pos equal.symm] at missed
      cases missed

/-- From a place on, a key that an older one collides with is hidden. -/
def Apart (shamt bound : Nat) (keys : List (Address × Bool)) : Prop :=
  ∀ (place otherPlace : Nat) (one other : Address × Bool), place < otherPlace →
    bound ≤ otherPlace → keys[place]? = some one → keys[otherPlace]? = some other →
    one.1.sliceUpper shamt = other.1.sliceUpper shamt → one.2 = other.2 →
    HiddenKey shamt keys other

theorem apart_length (shamt : Nat) (keys : List (Address × Bool)) :
    Apart shamt keys.length keys := by
  intro place otherPlace one other _before from' _isOne isOther _block _state
  rw [List.getElem?_eq_none from'] at isOther
  cases isOther

theorem HiddenKey.append {shamt : Nat} {keys : List (Address × Bool)} {named : Address × Bool}
    (hidden : HiddenKey shamt keys named) (more : List (Address × Bool)) :
    HiddenKey shamt (keys ++ more) named := by
  obtain ⟨oldest, found, differs⟩ := hidden
  refine ⟨oldest, ?_, differs⟩
  rw [List.find?_append, found]
  rfl

theorem Apart.join {shamt bound : Nat} {keys : List (Address × Bool)} {named : Address × Bool}
    (apart : Apart shamt bound keys)
    (missed : ∀ other ∈ keys, other.1.sliceUpper shamt = named.1.sliceUpper shamt →
      HiddenKey shamt keys named) : Apart shamt bound (keys ++ [named]) := by
  intro place otherPlace one other before from' isOne isOther block state
  rcases Nat.lt_or_ge otherPlace keys.length with within | beyond
  · rw [List.getElem?_append_left within] at isOther
    rw [List.getElem?_append_left (before.trans within)] at isOne
    exact (apart place otherPlace one other before from' isOne isOther block state).append [named]
  · rw [List.getElem?_append_right beyond, List.getElem?_singleton] at isOther
    split at isOther
    case isFalse => cases isOther
    case isTrue last =>
      cases isOther
      rw [List.getElem?_append_left (by omega)] at isOne
      exact (missed one (List.mem_of_getElem? isOne) block).append [named]

/-! ### A check -/

private theorem keys_join (checked : List Request) (packet : Request) :
    (checked ++ [{ packet with forwardChecked := true }]).map key =
      checked.map key ++ [key packet] :=
  List.map_append

/-- A request that merges, or joins the queue when it collides with nothing. -/
theorem settled_apart {shamt bound : Nat} {checked : List Request} (packet : Request)
    (apart : Apart shamt bound (checked.map key)) :
    let settled := (doCollisionForMerge checked packet shamt).getD
      (checked ++ [{ packet with forwardChecked := true }])
    checked.map key <+: settled.map key ∧ Apart shamt bound (settled.map key) := by
  unfold doCollisionForMerge
  cases collides : collisionIndex checked packet shamt with
  | none =>
      rw [Option.map_none, Option.getD_none]
      dsimp only
      rw [keys_join]
      refine ⟨List.prefix_append _ _, apart.join ?_⟩
      intro named member block
      obtain ⟨other, present, same⟩ := List.mem_map.mp member
      subst same
      exact (hidden_keys shamt checked packet).mp
        (collisionIndex_none collides other present block)
  | some index =>
      rw [Option.map_some, Option.getD_some]
      dsimp only
      rw [keys_modify]
      exact ⟨List.prefix_refl _, apart⟩

theorem checkWq_apart (shamt bound : Nat) (rest : List Request) :
    ∀ checked : List Request, Apart shamt bound (checked.map key) →
      checked.map key <+: (checkWq shamt checked rest).map key ∧
        Apart shamt bound ((checkWq shamt checked rest).map key) := by
  induction rest with
  | nil =>
      intro checked apart
      exact ⟨List.prefix_refl _, apart⟩
  | cons packet rest continues =>
      intro checked apart
      obtain ⟨kept, still⟩ := settled_apart packet apart
      unfold checkWq
      cases collides : doCollisionForMerge checked packet shamt with
      | none =>
          rw [collides] at kept still
          obtain ⟨later, last⟩ := continues _ still
          exact ⟨kept.trans later, last⟩
      | some merged =>
          rw [collides] at kept still
          obtain ⟨later, last⟩ := continues merged still
          exact ⟨kept.trans later, last⟩

theorem checkReads_apart (wq : List Request) (writeShamt shamt bound : Nat)
    (rest : List Request) :
    ∀ checked : List Request, Apart shamt bound (checked.map key) →
      checked.map key <+: (checkReads wq writeShamt shamt checked rest).1.map key ∧
        Apart shamt bound ((checkReads wq writeShamt shamt checked rest).1.map key) := by
  induction rest with
  | nil =>
      intro checked apart
      exact ⟨List.prefix_refl _, apart⟩
  | cons packet rest continues =>
      intro checked apart
      unfold checkReads
      cases doCollisionForReturn wq packet writeShamt with
      | some answers => exact continues checked apart
      | none =>
          obtain ⟨kept, still⟩ := settled_apart packet apart
          cases collides : doCollisionForMerge checked packet shamt with
          | none =>
              rw [collides] at kept still
              obtain ⟨later, last⟩ := continues _ still
              exact ⟨kept.trans later, last⟩
          | some merged =>
              rw [collides] at kept still
              obtain ⟨later, last⟩ := continues merged still
              exact ⟨kept.trans later, last⟩

def QueueKind.shamt (offsetBits : Nat) (matchOffsetBits : Bool) : QueueKind → Nat
  | .rq => offsetBits
  | .pq => offsetBits
  | .wq => if matchOffsetBits then 0 else offsetBits

/-- A check keeps the keys of the requests that were checked before, and from there on only what is
hidden collides. -/
theorem settle_apart (offsetBits : Nat) (matchOffsetBits : Bool) (wq : List Request)
    (kind : QueueKind) (queue : List Request) :
    let settled := kind.settle offsetBits matchOffsetBits wq queue
    (checkedUpTo queue).map key <+: settled.map key ∧
      Apart (kind.shamt offsetBits matchOffsetBits) (checkedUpTo queue).length
        (settled.map key) := by
  have start := fun shamt => apart_length shamt ((checkedUpTo queue).map key)
  simp only [List.length_map] at start
  cases kind with
  | rq => exact checkReads_apart _ _ _ _ _ _ (start _)
  | pq => exact checkReads_apart _ _ _ _ _ _ (start _)
  | wq => exact checkWq_apart _ _ _ _ (start _)

/-! ### Reads next to the write queue -/

theorem doCollisionForReturn_none {wq : List Request} {packet : Request} {shamt : Nat}
    (unanswered : doCollisionForReturn wq packet shamt = none) :
    collisionIndex wq packet shamt = none := by
  cases collides : collisionIndex wq packet shamt with
  | none => rfl
  | some index =>
      unfold doCollisionForReturn at unanswered
      rw [collides, Option.bind_some, List.getElem?_eq_getElem (collisionIndex_lt collides)]
        at unanswered
      cases unanswered

theorem checkReads_unanswered (wq : List Request) (writeShamt shamt bound : Nat)
    (rest : List Request) :
    ∀ checked : List Request, bound ≤ checked.length →
      (∀ packet ∈ checked.drop bound, collisionIndex wq packet writeShamt = none) →
      ∀ packet ∈ (checkReads wq writeShamt shamt checked rest).1.drop bound,
        collisionIndex wq packet writeShamt = none := by
  induction rest with
  | nil =>
      intro checked _within unanswered
      exact unanswered
  | cons packet rest continues =>
      intro checked within unanswered
      unfold checkReads
      cases answered : doCollisionForReturn wq packet writeShamt with
      | some answers => exact continues checked within unanswered
      | none =>
          unfold doCollisionForMerge
          cases collides : collisionIndex checked packet shamt with
          | none =>
              apply continues
              · rw [List.length_append]
                omega
              · intro other member
                rw [List.drop_append_of_le_length within] at member
                rcases List.mem_append.mp member with older | newest
                · exact unanswered other older
                · rw [List.mem_singleton.mp newest]
                  refine (collisionIndex_key wq _ packet writeShamt rfl).trans ?_
                  exact doCollisionForReturn_none answered
          | some index =>
              apply continues
              · rw [List.length_modify]
                exact within
              · intro other member
                have named : key other ∈ (checked.drop bound).map key := by
                  rw [List.map_drop, ← keys_modify checked index packet, ← List.map_drop]
                  exact List.mem_map_of_mem member
                obtain ⟨old, present, same⟩ := List.mem_map.mp named
                rw [collisionIndex_key wq other old writeShamt same.symm]
                exact unanswered old present

def Collide (shamt : Nat) (one other : Request) : Prop :=
  one.address.sliceUpper shamt = other.address.sliceUpper shamt ∧
    one.isTranslated = other.isTranslated

instance (shamt : Nat) (one other : Request) : Decidable (Collide shamt one other) :=
  inferInstanceAs (Decidable (_ ∧ _))

/-- No two requests of a queue collide, and no read collides with a write. -/
def CollisionFree (offsetBits : Nat) (matchOffsetBits : Bool) (channel : Channel) : Prop :=
  (∀ kind ∈ [QueueKind.rq, .pq, .wq], (kind.of channel).Pairwise
    (fun one other => ¬ Collide (kind.shamt offsetBits matchOffsetBits) one other)) ∧
  ∀ kind ∈ [QueueKind.rq, .pq], ∀ read ∈ kind.of channel, ∀ write ∈ channel.wq,
    ¬ Collide (QueueKind.wq.shamt offsetBits matchOffsetBits) read write

instance (offsetBits : Nat) (matchOffsetBits : Bool) (channel : Channel) :
    Decidable (CollisionFree offsetBits matchOffsetBits channel) :=
  inferInstanceAs (Decidable (_ ∧ _))

/-- A read that was checked before the write joined still collides with it. Of
two physical packets behind a virtual one with the same bits, the second is
compared with the virtual one only. -/
theorem collisions_remain :
    ¬ CollisionFree 6 false (runCalls 6 false (empty 4 4 4)
      [.addRq { address := 0xdeadbeef }, .checkCollision, .addWq { address := 0xdeadbeef },
        .checkCollision]) ∧
    ¬ CollisionFree 6 false (runCalls 6 false (empty 4 4 4)
      [.addRq { address := 0xdeadbeef, isTranslated := false }, .addRq { address := 0xdeadbeef },
        .addRq { address := 0xdeadbeef }, .checkCollision]) := by
  decide +kernel

/-- A read that stays behind those checked before collides with a write only
when it is hidden in the write queue. -/
theorem settleReads_hidden (offsetBits : Nat) (matchOffsetBits : Bool) (wq queue : List Request)
    (read : Request)
    (stays : read ∈ (settleReads offsetBits matchOffsetBits wq queue).drop
      (checkedUpTo queue).length)
    (write : Request) (member : write ∈ wq)
    (collide : Collide (QueueKind.wq.shamt offsetBits matchOffsetBits) read write) :
    Hidden (QueueKind.wq.shamt offsetBits matchOffsetBits) wq read := by
  have unanswered := checkReads_unanswered wq
    (QueueKind.wq.shamt offsetBits matchOffsetBits) offsetBits (checkedUpTo queue).length
    (uncheckedFrom queue) (checkedUpTo queue) (Nat.le_refl _) (by simp) read stays
  exact collisionIndex_none unanswered write member collide.1.symm

theorem Hidden.of_key {shamt : Nat} {queue : List Request} {one other : Request}
    (hidden : Hidden shamt queue one) (same : key one = key other) : Hidden shamt queue other := by
  rw [hidden_keys] at hidden ⊢
  rw [← same]
  exact hidden

theorem Collide.of_keys {shamt : Nat} {one other one' other' : Request}
    (collide : Collide shamt one other) (same : key one = key one')
    (sameOther : key other = key other') : Collide shamt one' other' := by
  have address : one.address = one'.address := congrArg Prod.fst same
  have state : one.isTranslated = one'.isTranslated := congrArg Prod.snd same
  have otherAddress : other.address = other'.address := congrArg Prod.fst sameOther
  have otherState : other.isTranslated = other'.isTranslated := congrArg Prod.snd sameOther
  unfold Collide at collide ⊢
  rw [← address, ← state, ← otherAddress, ← otherState]
  exact collide

/-! ### Runs -/

/-- The call that takes a request from the front of a queue. -/
def QueueKind.pop : QueueKind → ChannelCall
  | .rq => .popRq
  | .pq => .popPq
  | .wq => .popWq

def gone (kind : QueueKind) (calls : List ChannelCall) : Nat := calls.count kind.pop

theorem gone_append (kind : QueueKind) (calls more : List ChannelCall) :
    gone kind (calls ++ more) = gone kind calls + gone kind more :=
  List.count_append

theorem gone_other {kind : QueueKind} {next : ChannelCall} (other : next ≠ kind.pop) :
    gone kind [next] = 0 :=
  List.count_eq_zero.mpr (fun member => other (List.mem_singleton.mp member).symm)

theorem runCalls_append (offsetBits : Nat) (matchOffsetBits : Bool) (channel : Channel)
    (calls more : List ChannelCall) :
    runCalls offsetBits matchOffsetBits channel (calls ++ more) =
      runCalls offsetBits matchOffsetBits (runCalls offsetBits matchOffsetBits channel calls)
        more :=
  List.foldl_append

theorem checkedUpTo_of_checked (queue : List Request)
    (all : ∀ packet ∈ queue, packet.forwardChecked = true) : checkedUpTo queue = queue :=
  List.takeWhile_eq_self_iff.mpr all

theorem checkedUpTo_join (queue : List Request) (packet : Request) :
    checkedUpTo (queue ++ [{ packet with forwardChecked := false }]) = checkedUpTo queue := by
  unfold checkedUpTo
  rw [List.takeWhile_append]
  split
  case isTrue all =>
    rw [List.takeWhile_cons_of_neg (by simp), List.append_nil]
    exact ((List.takeWhile_sublist _).eq_of_length all).symm
  case isFalse => rfl

theorem checkedUpTo_tail {queue : List Request} (last : UncheckedLast queue) :
    checkedUpTo queue.tail = (checkedUpTo queue).tail := by
  cases queue with
  | nil => rfl
  | cons first rest =>
      unfold checkedUpTo
      cases isChecked : first.forwardChecked with
      | true => rw [List.takeWhile_cons_of_pos isChecked, List.tail_cons, List.tail_cons]
      | false =>
          have unchecked : ∀ packet ∈ rest, packet.forwardChecked = false := by
            intro packet member
            apply last
            unfold uncheckedFrom
            rw [List.dropWhile_cons_of_neg (by simp [isChecked])]
            exact List.mem_cons_of_mem first member
          rw [List.takeWhile_cons_of_neg (by simp [isChecked]), List.tail_cons, List.tail_nil]
          cases rest with
          | nil => rfl
          | cons next more =>
              exact List.takeWhile_cons_of_neg (by simp [unchecked next (List.mem_cons_self ..)])

theorem doAddQueue_checked (queue : List Request) (size : Nat) (packet : Request) :
    checkedUpTo ((doAddQueue queue size packet).getD queue) = checkedUpTo queue := by
  unfold doAddQueue
  split
  · rfl
  · exact checkedUpTo_join queue packet

/-- A call that neither checks a queue nor takes from it checks no request of it. -/
theorem call_checked (offsetBits : Nat) (matchOffsetBits : Bool) (kind : QueueKind)
    (channel : Channel) (next : ChannelCall) (check : next ≠ .checkCollision)
    (pop : next ≠ kind.pop) :
    checkedUpTo (kind.of (call offsetBits matchOffsetBits channel next)) =
      checkedUpTo (kind.of channel) := by
  cases next with
  | addRq packet =>
      simp only [call, addRq_getD]
      cases kind with
      | rq => exact doAddQueue_checked _ _ packet
      | pq => rfl
      | wq => rfl
  | addPq packet =>
      simp only [call, addPq_getD]
      cases kind with
      | rq => rfl
      | pq => exact doAddQueue_checked _ _ packet
      | wq => rfl
  | addWq packet =>
      simp only [call, addWq_getD]
      cases kind with
      | rq => rfl
      | pq => rfl
      | wq => exact doAddQueue_checked _ _ packet
  | checkCollision => exact absurd rfl check
  | popRq =>
      cases kind with
      | rq => exact absurd rfl pop
      | pq => rfl
      | wq => rfl
  | popPq =>
      cases kind with
      | rq => rfl
      | pq => exact absurd rfl pop
      | wq => rfl
  | popWq =>
      cases kind with
      | rq => rfl
      | pq => rfl
      | wq => exact absurd rfl pop

theorem call_pop (offsetBits : Nat) (matchOffsetBits : Bool) (kind : QueueKind)
    (channel : Channel) :
    kind.of (call offsetBits matchOffsetBits channel kind.pop) = (kind.of channel).tail := by
  cases kind <;> rfl

theorem check_checked (offsetBits : Nat) (matchOffsetBits : Bool) (kind : QueueKind)
    (channel : Channel) :
    checkedUpTo (kind.of (checkCollision offsetBits matchOffsetBits channel)) =
      kind.of (checkCollision offsetBits matchOffsetBits channel) := by
  apply checkedUpTo_of_checked
  rw [checkCollision_queue]
  exact settle_checked offsetBits matchOffsetBits _ kind _

/-- The requests that a queue held after a check are still its first ones, less those that have
been taken from its front. -/
theorem run_kept (offsetBits : Nat) (matchOffsetBits : Bool) (kind : QueueKind)
    (checked : Channel)
    (all : checkedUpTo (kind.of checked) = kind.of checked) (calls : List ChannelCall) :
    ((kind.of checked).map key).drop (gone kind calls) <+:
      (checkedUpTo (kind.of (runCalls offsetBits matchOffsetBits checked calls))).map key := by
  induction calls using List.reverseRecOn with
  | nil =>
      change (kind.of checked).map key <+: (checkedUpTo (kind.of checked)).map key
      rw [all]
  | append_singleton calls next kept =>
      have last : UncheckedLast (kind.of (runCalls offsetBits matchOffsetBits checked calls)) := by
        apply runCalls_uncheckedLast
        exact uncheckedLast_of_checked _ (List.takeWhile_eq_self_iff.mp all)
      rw [runCalls_append, gone_append]
      change _ <+: (checkedUpTo (kind.of (call offsetBits matchOffsetBits
        (runCalls offsetBits matchOffsetBits checked calls) next))).map key
      generalize runCalls offsetBits matchOffsetBits checked calls = channel at kept last ⊢
      by_cases isCheck : next = .checkCollision
      · subst isCheck
        rw [gone_other (by cases kind <;> decide), Nat.add_zero]
        change _ <+: (checkedUpTo (kind.of (checkCollision offsetBits matchOffsetBits
          channel))).map key
        rw [check_checked, checkCollision_queue]
        exact kept.trans (settle_apart offsetBits matchOffsetBits _ kind (kind.of channel)).1
      · by_cases isPop : next = kind.pop
        · subst isPop
          have one : gone kind [kind.pop] = 1 := List.count_singleton_self
          rw [one, call_pop, checkedUpTo_tail last, List.map_tail, ← List.tail_drop,
            ← List.drop_one, ← List.drop_one]
          exact kept.drop 1
        · rw [gone_other isPop, Nat.add_zero,
            call_checked offsetBits matchOffsetBits kind channel next isCheck isPop]
          exact kept

section Runs

variable (offsetBits : Nat) (matchOffsetBits : Bool) (kind : QueueKind) (start : Channel)

/-- The first check after the request that is now at this place of a queue joined: the calls before
this check, and those after it. -/
structure FirstCheck (calls : List ChannelCall) (place : Nat)
    (earlier later : List ChannelCall) : Prop where
  split : calls = earlier ++ .checkCollision :: later
  joined : (checkedUpTo (kind.of (runCalls offsetBits matchOffsetBits start earlier))).length ≤
    place + gone kind later
  held : place + gone kind later <
    (kind.of (runCalls offsetBits matchOffsetBits start (earlier ++ [.checkCollision]))).length

variable {offsetBits matchOffsetBits kind start}

theorem FirstCheck.later {calls : List ChannelCall} {place : Nat}
    {earlier later : List ChannelCall} (next : ChannelCall)
    (first : FirstCheck offsetBits matchOffsetBits kind start calls (place + gone kind [next])
      earlier later) :
    FirstCheck offsetBits matchOffsetBits kind start (calls ++ [next]) place earlier
      (later ++ [next]) := by
  have moved : place + gone kind (later ++ [next]) = place + gone kind [next] + gone kind later := by
    rw [gone_append]
    omega
  refine ⟨?_, ?_, ?_⟩
  · rw [first.split, List.append_assoc]
    rfl
  · rw [moved]
    exact first.joined
  · rw [moved]
    exact first.held

theorem exists_firstCheck (last : UncheckedLast (kind.of start))
    (none : checkedUpTo (kind.of start) = []) (calls : List ChannelCall) :
    ∀ place < (checkedUpTo (kind.of
        (runCalls offsetBits matchOffsetBits start calls))).length,
      ∃ earlier later,
        FirstCheck offsetBits matchOffsetBits kind start calls place earlier later := by
  induction calls using List.reverseRecOn with
  | nil =>
      intro place within
      change place < (checkedUpTo (kind.of start)).length at within
      rw [none] at within
      cases within
  | append_singleton calls next older =>
      intro place within
      have stillLast := runCalls_uncheckedLast offsetBits matchOffsetBits kind calls start last
      have once : ∀ position, position = place + gone kind [next] →
          position < (checkedUpTo (kind.of
            (runCalls offsetBits matchOffsetBits start calls))).length →
          ∃ earlier later, FirstCheck offsetBits matchOffsetBits kind start (calls ++ [next])
            place earlier later := by
        intro position moved before
        obtain ⟨earlier, later, first⟩ := older position before
        exact ⟨earlier, later ++ [next], (moved ▸ first).later next⟩
      have step : runCalls offsetBits matchOffsetBits start (calls ++ [next]) =
          call offsetBits matchOffsetBits
            (runCalls offsetBits matchOffsetBits start calls) next :=
        runCalls_append offsetBits matchOffsetBits start calls [next]
      by_cases isCheck : next = .checkCollision
      · subst isCheck
        have same : gone kind [.checkCollision] = 0 := gone_other (by cases kind <;> decide)
        rcases Nat.lt_or_ge place (checkedUpTo (kind.of
          (runCalls offsetBits matchOffsetBits start calls))).length with before | joined
        · exact once place (by rw [same, Nat.add_zero]) before
        · refine ⟨calls, [], rfl, joined, ?_⟩
          exact within.trans_le (List.takeWhile_sublist _).length_le
      · rw [step] at within
        by_cases isPop : next = kind.pop
        · subst isPop
          have one : gone kind [kind.pop] = 1 := List.count_singleton_self
          rw [call_pop, checkedUpTo_tail stillLast, List.length_tail] at within
          exact once (place + 1) (by rw [one]) (by omega)
        · rw [call_checked offsetBits matchOffsetBits kind _ next isCheck isPop] at within
          exact once place (by rw [gone_other isPop, Nat.add_zero]) within

/-- What was at a place after the first check of another request is now nearer the front. -/
theorem FirstCheck.same {calls : List ChannelCall} {place : Nat}
    {earlier later : List ChannelCall}
    (first : FirstCheck offsetBits matchOffsetBits kind start calls place earlier later)
    (other : QueueKind) (position : Nat)
    (within : position + gone other later < (other.of
      (runCalls offsetBits matchOffsetBits start (earlier ++ [.checkCollision]))).length) :
    (other.of (runCalls offsetBits matchOffsetBits start
        (earlier ++ [.checkCollision])))[position + gone other later]?.map key =
      (other.of (runCalls offsetBits matchOffsetBits start calls))[position]?.map key := by
  have run : runCalls offsetBits matchOffsetBits start calls =
      runCalls offsetBits matchOffsetBits
        (runCalls offsetBits matchOffsetBits start (earlier ++ [.checkCollision])) later := by
    rw [first.split, ← runCalls_append, List.append_assoc]
    rfl
  have checked : checkedUpTo (other.of
      (runCalls offsetBits matchOffsetBits start (earlier ++ [.checkCollision]))) =
      other.of (runCalls offsetBits matchOffsetBits start (earlier ++ [.checkCollision])) := by
    rw [runCalls_append]
    exact check_checked offsetBits matchOffsetBits other _
  rw [run, ← List.getElem?_map, ← List.getElem?_map]
  generalize runCalls offsetBits matchOffsetBits start (earlier ++ [.checkCollision]) = then' at *
  obtain ⟨rest, kept⟩ := run_kept offsetBits matchOffsetBits other then' checked later
  obtain ⟨unchecked, whole⟩ := List.takeWhile_prefix (fun packet => packet.forwardChecked)
    (l := other.of (runCalls offsetBits matchOffsetBits then' later))
  have dropped : position < (((other.of then').map key).drop (gone other later)).length := by
    rw [List.length_drop, List.length_map]
    omega
  unfold checkedUpTo at kept
  rw [← whole, List.map_append, ← kept, List.append_assoc, List.getElem?_append_left dropped,
    List.getElem?_drop, Nat.add_comm]

/-- A request that collides with an older one was hidden at its first check. -/
theorem FirstCheck.hidden {calls : List ChannelCall} {place otherPlace : Nat}
    {one other : Request} {earlier later : List ChannelCall}
    (first : FirstCheck offsetBits matchOffsetBits kind start calls otherPlace earlier later)
    (ordered : place < otherPlace)
    (isOne : (kind.of (runCalls offsetBits matchOffsetBits start calls))[place]? = some one)
    (isOther : (kind.of (runCalls offsetBits matchOffsetBits start calls))[otherPlace]? =
      some other)
    (collide : Collide (kind.shamt offsetBits matchOffsetBits) one other) :
    Hidden (kind.shamt offsetBits matchOffsetBits)
      (kind.of (runCalls offsetBits matchOffsetBits start (earlier ++ [.checkCollision])))
      other := by
  have keyOther := first.same kind otherPlace first.held
  have keyOne := first.same kind place
    ((Nat.add_lt_add_right ordered _).trans first.held)
  have joined := first.joined
  rw [isOther, ← List.getElem?_map, runCalls_append] at keyOther
  rw [isOne, ← List.getElem?_map, runCalls_append] at keyOne
  rw [hidden_keys, runCalls_append]
  change ((kind.of (checkCollision offsetBits matchOffsetBits _)).map key)[_]? = _
    at keyOne keyOther
  change HiddenKey _ ((kind.of (checkCollision offsetBits matchOffsetBits _)).map key) _
  rw [checkCollision_queue] at keyOne keyOther ⊢
  exact (settle_apart offsetBits matchOffsetBits _ kind _).2 _ _ (key one) (key other)
    (Nat.add_lt_add_right ordered _) joined keyOne keyOther collide.1 collide.2

/-- A read that collides with a write was hidden in the write queue at its first check, or the
write joined later. -/
theorem FirstCheck.hiddenRead {calls : List ChannelCall} {place writePlace : Nat}
    {read write : Request} {earlier later : List ChannelCall}
    (first : FirstCheck offsetBits matchOffsetBits kind start calls place earlier later)
    (isRead : kind ∈ [QueueKind.rq, .pq])
    (isAt : (kind.of (runCalls offsetBits matchOffsetBits start calls))[place]? = some read)
    (isWrite : (runCalls offsetBits matchOffsetBits start calls).wq[writePlace]? = some write)
    (collide : Collide (QueueKind.wq.shamt offsetBits matchOffsetBits) read write) :
    let compared := runCalls offsetBits matchOffsetBits start (earlier ++ [.checkCollision])
    compared.wq.length ≤ writePlace + gone .wq later ∨
      Hidden (QueueKind.wq.shamt offsetBits matchOffsetBits) compared.wq read := by
  intro compared
  rcases Nat.lt_or_ge (writePlace + gone .wq later) compared.wq.length with before | after
  · right
    have keyRead := first.same kind place first.held
    have keyWrite := first.same .wq writePlace before
    change _ = (runCalls offsetBits matchOffsetBits start calls).wq[writePlace]?.map key
      at keyWrite
    rw [isAt] at keyRead
    rw [isWrite] at keyWrite
    obtain ⟨oldRead, isOldRead, sameRead⟩ := Option.map_eq_some_iff.mp keyRead
    obtain ⟨oldWrite, isOldWrite, sameWrite⟩ := Option.map_eq_some_iff.mp keyWrite
    have stays : oldRead ∈ (kind.of compared).drop (checkedUpTo (kind.of
        (runCalls offsetBits matchOffsetBits start earlier))).length := by
      obtain ⟨behind, place'⟩ := Nat.exists_eq_add_of_le first.joined
      rw [place'] at isOldRead
      rw [← List.getElem?_drop] at isOldRead
      exact List.mem_of_getElem? isOldRead
    have queue : kind.of compared = settleReads offsetBits matchOffsetBits compared.wq
        (kind.of (runCalls offsetBits matchOffsetBits start earlier)) := by
      have isCompared : compared = checkCollision offsetBits matchOffsetBits
          (runCalls offsetBits matchOffsetBits start earlier) :=
        runCalls_append offsetBits matchOffsetBits start earlier [.checkCollision]
      rw [isCompared, checkCollision_queue]
      cases kind with
      | rq => rfl
      | pq => rfl
      | wq => exact absurd isRead (by decide)
    rw [queue] at stays
    exact (settleReads_hidden _ _ _ _ oldRead stays oldWrite (List.mem_of_getElem? isOldWrite)
      (collide.of_keys sameRead.symm sameWrite.symm)).of_key sameRead
  · exact .inl after

end Runs

/-- Right after a check, two requests of a queue collide only where the check that compared them,
the first one after the younger joined, found the oldest request of its block in the other
translation state. A read collides with a write only where the write joined after the check that
compared the read, or where this check found the oldest write of the address in the other state. -/
theorem runCalls_settled (offsetBits : Nat) (matchOffsetBits : Bool) (rqSize pqSize wqSize : Nat)
    (earlierCalls : List ChannelCall) :
    let start := empty rqSize pqSize wqSize
    let calls := earlierCalls ++ [.checkCollision]
    let after := runCalls offsetBits matchOffsetBits start calls
    (∀ (kind : QueueKind) (place otherPlace : Nat) (one other : Request), place < otherPlace →
      (kind.of after)[place]? = some one → (kind.of after)[otherPlace]? = some other →
      Collide (kind.shamt offsetBits matchOffsetBits) one other →
      ∃ earlier later,
        FirstCheck offsetBits matchOffsetBits kind start calls otherPlace earlier later ∧
        Hidden (kind.shamt offsetBits matchOffsetBits)
          (kind.of (runCalls offsetBits matchOffsetBits start (earlier ++ [.checkCollision])))
          other) ∧
    ∀ kind ∈ [QueueKind.rq, .pq], ∀ (place writePlace : Nat) (read write : Request),
      (kind.of after)[place]? = some read → after.wq[writePlace]? = some write →
      Collide (QueueKind.wq.shamt offsetBits matchOffsetBits) read write →
      ∃ earlier later,
        FirstCheck offsetBits matchOffsetBits kind start calls place earlier later ∧
        let compared := runCalls offsetBits matchOffsetBits start (earlier ++ [.checkCollision])
        (compared.wq.length ≤ writePlace + gone .wq later ∨
          Hidden (QueueKind.wq.shamt offsetBits matchOffsetBits) compared.wq read) := by
  intro start calls after
  have first : ∀ (kind : QueueKind) (place : Nat) (packet : Request),
      (kind.of after)[place]? = some packet → ∃ earlier later,
        FirstCheck offsetBits matchOffsetBits kind start calls place earlier later := by
    intro kind place packet isAt
    apply exists_firstCheck
    · cases kind <;> exact uncheckedLast_of_checked _ (by simp [start, QueueKind.of, empty])
    · cases kind <;> rfl
    · change place < (checkedUpTo (kind.of after)).length
      have checked : checkedUpTo (kind.of after) = kind.of after := by
        change checkedUpTo (kind.of (runCalls _ _ _ (_ ++ _))) =
          kind.of (runCalls _ _ _ (_ ++ _))
        rw [runCalls_append]
        exact check_checked offsetBits matchOffsetBits kind _
      rw [checked]
      exact (List.getElem?_eq_some_iff.mp isAt).1
  constructor
  · intro kind place otherPlace one other ordered isOne isOther collide
    obtain ⟨earlier, later, checked⟩ := first kind otherPlace other isOther
    exact ⟨earlier, later, checked, checked.hidden ordered isOne isOther collide⟩
  · intro kind isRead place writePlace read write isAt isWrite collide
    obtain ⟨earlier, later, checked⟩ := first kind place read isAt
    exact ⟨earlier, later, checked, checked.hiddenRead isRead isAt isWrite collide⟩

/-- Two physical reads behind a virtual one with the same bits stay in the queue. -/
theorem runCalls_settled_behindVirtual :
    ∃ earlier later,
      FirstCheck 6 false .rq (empty 4 4 4)
        [.addRq { address := 0xdeadbeef, isTranslated := false },
          .addRq { address := 0xdeadbeef }, .addRq { address := 0xdeadbeef }, .checkCollision]
        2 earlier later ∧
      Hidden 6 (runCalls 6 false (empty 4 4 4) (earlier ++ [.checkCollision])).rq
        { address := 0xdeadbeef, forwardChecked := true } :=
  (runCalls_settled 6 false 4 4 4
    [.addRq { address := 0xdeadbeef, isTranslated := false },
      .addRq { address := 0xdeadbeef }, .addRq { address := 0xdeadbeef }]).1 .rq 1 2
    { address := 0xdeadbeef, forwardChecked := true }
    { address := 0xdeadbeef, forwardChecked := true } (by decide) (by decide +kernel)
    (by decide +kernel) (by decide +kernel)

end Channel

end ChampSim.Cache

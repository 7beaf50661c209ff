/-
How a cycle divides its tag checks among the levels above.

The share of a level is computed once and given to each of its three queues, so
a level keeps to its share only when its queues together ask for no more, or
when the levels served before it leave no more.
-/

import ChampSim.Cache.Cycle
import Mathlib.Data.List.Rotate

set_option autoImplicit false

namespace ChampSim.Cache

namespace Pipeline

variable {config : OperateConfig} {Module : Type}

/-- Whether the stash has room, which lets untranslated requests through. -/
def stashAvailable (pipeline : Pipeline config Module) : Bool :=
  decide (pipeline.translationStash.length < config.mshrSize)

/-- The levels above in the order in which they are served. -/
def servedOrder (pipeline : Pipeline config Module) : List Nat :=
  (rotateUpper pipeline.restartStash).pipeline.upperOrder

/-- An equal portion of the bandwidth that the stash leaves, at least one. -/
def upperShare (pipeline : Pipeline config Module) : Nat :=
  max (pipeline.restartStash.remaining / pipeline.upperOrder.length) 1

/-- The requests at the front of a queue that may be taken. -/
def eligible (avail : Bool) (requests : List Request) : Nat :=
  (requests.takeWhile (fun request => avail || request.isTranslated)).length

/-- What the three queues of a level ask for, each within the share. -/
def demand (avail : Bool) (share : Nat) (channel : Channel) : Nat :=
  min share (eligible avail channel.wq) + min share (eligible avail channel.rq) +
    min share (eligible avail channel.pq)

def Intake.takenFrom (intake : Intake config Module) (level : Nat) : Nat :=
  intake.taken.countP (fun taken => decide (taken.1 = level))

/-- Each level asks for no more than its share, or the levels before it leave no more. -/
def SharesSuffice (pipeline : Pipeline config Module) : Prop :=
  ∀ earlier level later, pipeline.servedOrder = earlier ++ level :: later →
    demand pipeline.stashAvailable pipeline.upperShare (pipeline.upperLevels level) ≤
        pipeline.upperShare ∨
      pipeline.restartStash.remaining ≤ pipeline.upperShare + (earlier.map (fun other =>
        demand pipeline.stashAvailable pipeline.upperShare (pipeline.upperLevels other))).sum

/-! ### One queue -/

theorem takeRequests_remaining (avail : Bool) (share : Nat) (intake : Intake config Module)
    (level : Nat) (name : QueueName) :
    (takeRequests avail share intake (level, name)).remaining = intake.remaining -
      min share (eligible avail ((intake.pipeline.upperLevels level).queue name)) := by
  unfold takeRequests Queue.span eligible
  dsimp only
  rw [← List.take_takeWhile, List.length_take]
  omega

theorem takeRequests_takenFrom (avail : Bool) (share : Nat) (intake : Intake config Module)
    (level : Nat) (name : QueueName) (other : Nat) :
    (takeRequests avail share intake (level, name)).takenFrom other = intake.takenFrom other +
      if level = other then
        min intake.remaining
          (min share (eligible avail ((intake.pipeline.upperLevels level).queue name)))
      else 0 := by
  unfold takeRequests Queue.span eligible Intake.takenFrom
  dsimp only
  rw [List.countP_append, List.countP_map, ← List.take_takeWhile]
  congr 1
  split
  · next same =>
      refine (List.countP_eq_length.mpr (fun _ _ => decide_eq_true same)).trans ?_
      rw [List.length_take]
      omega
  · next different =>
      exact List.countP_eq_zero.mpr (fun _ _ taken => different (of_decide_eq_true taken))

theorem takeRequests_queue (avail : Bool) (share : Nat) (intake : Intake config Module)
    (level other : Nat) (name otherName : QueueName)
    (apart : level ≠ other ∨ name ≠ otherName) :
    ((takeRequests avail share intake (level, name)).pipeline.upperLevels other).queue otherName =
      (intake.pipeline.upperLevels other).queue otherName := by
  unfold takeRequests updateUpper
  dsimp only
  split
  · next same =>
      rcases apart with different | different
      · exact absurd same.symm different
      · cases name <;> cases otherName <;> first | rfl | exact absurd rfl different
  · rfl

/-! ### One level -/

def takeLevel (avail : Bool) (share : Nat) (intake : Intake config Module) (level : Nat) :
    Intake config Module :=
  [(level, .wq), (level, .rq), (level, .pq)].foldl (takeRequests avail share) intake

theorem foldl_sources (avail : Bool) (share : Nat) (order : List Nat)
    (intake : Intake config Module) :
    (sources order).foldl (takeRequests avail share) intake =
      order.foldl (takeLevel avail share) intake := by
  induction order generalizing intake with
  | nil => rfl
  | cons level rest ih =>
      change ([(level, QueueName.wq), (level, QueueName.rq), (level, QueueName.pq)] ++
        sources rest).foldl _ intake = _
      rw [List.foldl_append, ih]
      rfl

variable (avail : Bool) (share : Nat) (intake : Intake config Module) (level other : Nat)

theorem takeLevel_remaining :
    (takeLevel avail share intake level).remaining =
      intake.remaining - demand avail share (intake.pipeline.upperLevels level) := by
  unfold takeLevel demand
  rw [List.foldl_cons, List.foldl_cons, List.foldl_cons, List.foldl_nil, takeRequests_remaining,
    takeRequests_remaining, takeRequests_remaining,
    takeRequests_queue avail share _ level level .rq .pq (Or.inr (by decide)),
    takeRequests_queue avail share _ level level .wq .pq (Or.inr (by decide)),
    takeRequests_queue avail share _ level level .wq .rq (Or.inr (by decide))]
  change _ - min share (eligible avail (intake.pipeline.upperLevels level).wq) -
    min share (eligible avail (intake.pipeline.upperLevels level).rq) -
    min share (eligible avail (intake.pipeline.upperLevels level).pq) = _
  rw [Nat.sub_sub, Nat.sub_sub, ← Nat.add_assoc]

/-- Two draws from what is left together draw their sum, as far as it lasts. -/
theorem min_add_min_sub (left first second : Nat) :
    min left first + min (left - first) second = min left (first + second) := by
  omega

theorem takeLevel_takenFrom :
    (takeLevel avail share intake level).takenFrom other = intake.takenFrom other +
      if level = other then
        min intake.remaining (demand avail share (intake.pipeline.upperLevels level))
      else 0 := by
  unfold takeLevel demand
  rw [List.foldl_cons, List.foldl_cons, List.foldl_cons, List.foldl_nil, takeRequests_takenFrom,
    takeRequests_takenFrom, takeRequests_takenFrom, takeRequests_remaining, takeRequests_remaining,
    takeRequests_remaining,
    takeRequests_queue avail share _ level level .rq .pq (Or.inr (by decide)),
    takeRequests_queue avail share _ level level .wq .pq (Or.inr (by decide)),
    takeRequests_queue avail share _ level level .wq .rq (Or.inr (by decide))]
  split
  · change _ + min _ (min share (eligible avail (intake.pipeline.upperLevels level).wq)) +
      min (_ - min share (eligible avail (intake.pipeline.upperLevels level).wq))
        (min share (eligible avail (intake.pipeline.upperLevels level).rq)) +
      min (_ - min share (eligible avail (intake.pipeline.upperLevels level).wq) -
        min share (eligible avail (intake.pipeline.upperLevels level).rq))
        (min share (eligible avail (intake.pipeline.upperLevels level).pq)) = _
    rw [Nat.add_assoc, Nat.add_assoc, Nat.sub_sub, ← Nat.add_assoc (min _ _), min_add_min_sub,
      min_add_min_sub]
  · rfl

theorem takeLevel_upperLevels (apart : level ≠ other) :
    (takeLevel avail share intake level).pipeline.upperLevels other =
      intake.pipeline.upperLevels other := by
  unfold takeLevel takeRequests updateUpper
  dsimp only [List.foldl_cons, List.foldl_nil]
  rw [if_neg apart.symm, if_neg apart.symm, if_neg apart.symm]

/-! ### All levels -/

theorem takeLevels_absent (order : List Nat) (absent : other ∉ order) :
    (order.foldl (takeLevel avail share) intake).takenFrom other = intake.takenFrom other := by
  induction order generalizing intake with
  | nil => rfl
  | cons level rest ih =>
      have apart : level ≠ other := fun same => absent (same ▸ List.mem_cons_self)
      rw [List.foldl_cons, ih _ (fun member => absent (List.mem_cons_of_mem level member)),
        takeLevel_takenFrom, if_neg apart, Nat.add_zero]

/-- A level gets what it asks for, as far as the levels before it leave it. -/
theorem takeLevels_takenFrom (earlier later : List Nat)
    (distinct : (earlier ++ level :: later).Nodup) :
    ((earlier ++ level :: later).foldl (takeLevel avail share) intake).takenFrom level =
      intake.takenFrom level +
        min (intake.remaining - (earlier.map (fun before =>
          demand avail share (intake.pipeline.upperLevels before))).sum)
          (demand avail share (intake.pipeline.upperLevels level)) := by
  induction earlier generalizing intake with
  | nil =>
      obtain ⟨absent, -⟩ := List.nodup_cons.mp distinct
      rw [List.nil_append, List.foldl_cons, takeLevels_absent _ _ _ _ _ absent,
        takeLevel_takenFrom, if_pos rfl]
      rfl
  | cons first rest ih =>
      rw [List.cons_append] at distinct
      obtain ⟨absent, others⟩ := List.nodup_cons.mp distinct
      have apart : first ≠ level := fun same => absent (same ▸ List.mem_append_right _
        List.mem_cons_self)
      have untouched : (rest.map (fun before => demand avail share
          ((takeLevel avail share intake first).pipeline.upperLevels before))) =
          rest.map (fun before => demand avail share (intake.pipeline.upperLevels before)) := by
        apply List.map_congr_left
        intro before member
        have different : first ≠ before := fun same => absent (same ▸ List.mem_append_left _ member)
        rw [takeLevel_upperLevels _ _ _ _ _ different]
      rw [List.cons_append, List.foldl_cons, ih _ others, takeLevel_takenFrom, if_neg apart,
        takeLevel_remaining, untouched, takeLevel_upperLevels _ _ _ _ _ apart, List.map_cons,
        List.sum_cons, Nat.sub_sub, Nat.add_zero]

/-! ### The shares of a cycle -/

theorem initiateTagChecks_takenFrom (pipeline : Pipeline config Module)
    (distinct : pipeline.servedOrder.Nodup) (earlier later : List Nat)
    (served : pipeline.servedOrder = earlier ++ level :: later) :
    pipeline.initiateTagChecks.takenFrom level =
      min (pipeline.restartStash.remaining - (earlier.map (fun other =>
        demand pipeline.stashAvailable pipeline.upperShare (pipeline.upperLevels other))).sum)
        (demand pipeline.stashAvailable pipeline.upperShare (pipeline.upperLevels level)) := by
  have length : pipeline.servedOrder.length = pipeline.upperOrder.length := by
    unfold servedOrder rotateUpper
    dsimp only
    split
    · exact List.length_rotate _ _
    · rfl
  have some : 1 ≤ pipeline.servedOrder.length := by
    rw [served, List.length_append, List.length_cons]
    omega
  have taken : pipeline.initiateTagChecks.takenFrom level =
      ((sources pipeline.servedOrder).foldl
        (takeRequests pipeline.stashAvailable (if 1 ≤ pipeline.servedOrder.length then
          max (pipeline.restartStash.remaining / pipeline.servedOrder.length) 1 else 0))
        (rotateUpper pipeline.restartStash)).takenFrom level := rfl
  rw [taken, if_pos some, length, foldl_sources, served]
  rw [served] at distinct
  refine (takeLevels_takenFrom _ _ _ _ earlier later distinct).trans ?_
  exact Nat.zero_add _

theorem servedOrder_perm (pipeline : Pipeline config Module) :
    pipeline.servedOrder.Perm pipeline.upperOrder := by
  unfold servedOrder rotateUpper
  dsimp only
  split
  · exact List.rotate_perm _ _
  · exact List.Perm.refl _

theorem takenFrom_le_share_iff (pipeline : Pipeline config Module)
    (distinct : pipeline.upperOrder.Nodup) :
    (∀ level ∈ pipeline.upperOrder,
      pipeline.initiateTagChecks.takenFrom level ≤ pipeline.upperShare) ↔
        pipeline.SharesSuffice := by
  have order := pipeline.servedOrder_perm
  have servedOnce : pipeline.servedOrder.Nodup := order.nodup_iff.mpr distinct
  constructor
  · intro within earlier level later served
    have above : level ∈ pipeline.upperOrder := by
      apply order.mem_iff.mp
      rw [served]
      exact List.mem_append_right _ List.mem_cons_self
    have taken := initiateTagChecks_takenFrom level pipeline servedOnce earlier later served
    have most := within level above
    omega
  · intro asked level above
    obtain ⟨earlier, later, served⟩ := List.append_of_mem (order.mem_iff.mpr above)
    have taken := initiateTagChecks_takenFrom level pipeline servedOnce earlier later served
    have asks := asked earlier level later served
    omega

end Pipeline

/-! ### Two levels above -/

def twoTags : OperateConfig := { twoWays with maxTag := 2 }

/-- The first level that is served has a load and a write, the other one a load. -/
def twoAbove : Pipeline twoTags Unit where
  upperLevels := fun level =>
    { rqSize := 4
      pqSize := 4
      wqSize := 4
      rq := [{ address := 0x40 }]
      wq := if level = 0 then [{ address := 0x80, type := .write }] else [] }
  lowerLevel := { rqSize := 4, pqSize := 4, wqSize := 4 }
  modules := ()
  upperOrder := [1, 0]

def oneLoadEach : Pipeline twoTags Unit :=
  { twoAbove with
    upperLevels := fun _level => { rqSize := 4, pqSize := 4, wqSize := 4, rq := [{ address := 0x40 }] } }

theorem takenFrom_le_share_iff_loads : oneLoadEach.SharesSuffice ∧ ¬twoAbove.SharesSuffice := by
  constructor
  · apply (Pipeline.takenFrom_le_share_iff oneLoadEach (by decide)).mp
    decide +kernel
  · intro enough
    have within := (Pipeline.takenFrom_le_share_iff twoAbove (by decide)).mpr enough
    revert within
    decide +kernel

/-- The first level takes the share of the other one as well. -/
theorem twoAbove_exceedsShare :
    ¬∀ (served : Pipeline twoTags Unit), twoAbove.serveReturns silentCycle = some served →
      ∀ level ∈ served.upperOrder,
        served.initiateTagChecks.takenFrom level ≤ served.upperShare := by
  intro within
  have exceeds : ((twoAbove.serveReturns silentCycle).any (fun served =>
      served.upperOrder.any (fun level =>
        decide (served.upperShare < served.initiateTagChecks.takenFrom level)))) = true := by
    decide +kernel
  obtain ⟨served, serves, found⟩ := (Option.any_eq_true _ _).mp exceeds
  obtain ⟨level, above, more⟩ := List.any_eq_true.mp found
  have most := within served serves level above
  have least := of_decide_eq_true more
  omega

end ChampSim.Cache

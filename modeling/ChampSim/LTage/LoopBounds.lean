/-
How far the entries of the loop predictor count.

The count of the running execution never passes the count that the entry
remembers, once there is one. A confident entry therefore comes to the exit that
it expects, and its exit test is an equality.
-/

import ChampSim.LTage.LoopHistory

set_option autoImplicit false

namespace ChampSim.LTage

open Msl Branch Transition

/-- The running count has not passed the remembered one. -/
structure LoopEntry.CountsWithin (entry : LoopEntry) : Prop where
  trained : entry.pastIterCnt.value ≠ 0 →
    entry.currIterCnt.value ≤ entry.pastIterCnt.value
  confident : entry.confidence.value = 3 →
    entry.currIterCnt.value ≤ entry.pastIterCnt.value

theorem Counted.countsWithin {entry : LoopEntry} {outcomes : List Bool}
    (counted : Counted entry outcomes) : entry.CountsWithin := by
  constructor
  · intro trained
    exact (counted.trained trained).2.1
  · intro sure
    by_cases untrained : entry.pastIterCnt.value = 0
    · obtain ⟨_seen, _empty, idle, _streak⟩ := counted.untrained untrained
      rw [idle sure, untrained]
    · exact (counted.trained untrained).2.1

/-! ### One confident entry under more branches -/

section Streak

variable {loops : LoopPredictor} {set way : Int}

/-- How often a way predicts taken while it is confident, before it predicts
not-taken. -/
def takenStreak (set way : Int) : LoopPredictor → List (Address × Bool) → Nat
  | _, [] => 0
  | loops, branch :: rest =>
      let entry := loops.entry set way
      let next := loopModule.branch loops branch
      if entry.confident then
        if set = setIndex branch.1 ∧ loops.hitWay branch.1 = some way then
          if entry.predicts then takenStreak set way next rest + 1 else 0
        else takenStreak set way next rest
      else 0

theorem takenStreak_of_unsure (unsure : (loops.entry set way).confident = false)
    (branches : List (Address × Bool)) : takenStreak set way loops branches = 0 := by
  cases branches with
  | nil => rfl
  | cons branch rest =>
      unfold takenStreak
      simp only [unsure, Bool.false_eq_true, if_false]

theorem restart_unsure (entry : LoopEntry) (count : Int) :
    (entry.restart count).confident = false := rfl

theorem allocate_unsure (entry : LoopEntry) (tag : BitVec 32) :
    (entry.allocate tag).confident = false := rfl

/-- A branch that another way serves, or none, leaves the counts of a way, or
takes the way for itself. -/
theorem branch_apart (inside : LoopPredictor.Way set way) (branch : Address × Bool)
    (apart : ¬(set = setIndex branch.1 ∧ loops.hitWay branch.1 = some way)) :
    (∃ age, (loopModule.branch loops branch).entry set way =
      { loops.entry set way with age := age }) ∨
        ((loopModule.branch loops branch).entry set way).confident = false := by
  rw [entry_branch loops branch.1 branch.2 inside]
  by_cases here : set = setIndex branch.1
  · rw [if_pos here, here]
    rcases loops.updatedWay_cases branch.1 branch.2 way with
      ⟨found, _learned⟩ | ⟨_missed, _free, allocated⟩ | ⟨age, _unused, same⟩
    · exact absurd ⟨here, found⟩ apart
    · rw [allocated]
      exact Or.inr (allocate_unsure _ _)
    · exact Or.inl ⟨age, same⟩
  · rw [if_neg here]
    exact Or.inl ⟨_, rfl⟩

/-- An entry that expects more iterations counts one, or loses its confidence. -/
theorem learn_expected {entry : LoopEntry} (sure : entry.confident = true)
    (expects : entry.predicts = true)
    (within : entry.currIterCnt.value ≤ entry.pastIterCnt.value) (taken : Bool) :
    ((entry.learn taken).pastIterCnt.value = entry.pastIterCnt.value ∧
        (entry.learn taken).currIterCnt.value = entry.currIterCnt.value + 1) ∨
      (entry.learn taken).confident = false := by
  have different := (LoopEntry.predicts_iff _).mp expects
  cases taken with
  | true =>
      obtain ⟨age, advanced⟩ := LoopEntry.learn_advance (Or.inl ⟨sure, different⟩)
      have counts := BaseFwcounter.addAssign_one_value entry.currIterCnt
      have atMost := entry.pastIterCnt.atMost
      rw [advanced]
      refine Or.inl ⟨rfl, ?_⟩
      dsimp only
      omega
  | false =>
      have early : ¬entry.Completes := by
        rintro (same | untrained)
        · exact different same.symm
        · exact untrained.1 sure
      rw [LoopEntry.learn_early early]
      exact Or.inr (restart_unsure _ 0)

/-- A confident entry predicts taken once for each iteration that it still
expects, at most. -/
theorem takenStreak_le (inside : LoopPredictor.Way set way) (branches : List (Address × Bool))
    (within : (loops.entry set way).currIterCnt.value ≤ (loops.entry set way).pastIterCnt.value) :
    (takenStreak set way loops branches : Int) ≤
      (loops.entry set way).pastIterCnt.value - (loops.entry set way).currIterCnt.value := by
  induction branches generalizing loops with
  | nil =>
      change (0 : Int) ≤ _
      omega
  | cons branch rest ih =>
      unfold takenStreak
      dsimp only
      by_cases sure : (loops.entry set way).confident = true
      · rw [if_pos sure]
        by_cases hits : set = setIndex branch.1 ∧ loops.hitWay branch.1 = some way
        · rw [if_pos hits]
          obtain ⟨here, found⟩ := hits
          have learned : (loopModule.branch loops branch).entry set way =
              (loops.entry set way).learn branch.2 := by
            rw [entry_branch loops branch.1 branch.2 inside, if_pos here,
              LoopPredictor.updatedWay_hit found, if_pos rfl, here]
          by_cases expects : (loops.entry set way).predicts = true
          · rw [if_pos expects]
            have shorter := (LoopEntry.predicts_iff _).mp expects
            rcases learn_expected sure expects within branch.2 with ⟨past, current⟩ | unsure
            · have later := @ih (loopModule.branch loops branch) (by
                rw [learned, past, current]
                omega)
              rw [learned, past, current] at later
              push_cast
              omega
            · rw [takenStreak_of_unsure (by rw [learned]; exact unsure)]
              push_cast
              omega
          · rw [if_neg expects]
            push_cast
            omega
        · rw [if_neg hits]
          rcases branch_apart inside branch hits with ⟨age, same⟩ | unsure
          · have later := @ih (loopModule.branch loops branch) (by
              rw [same]
              exact within)
            rw [same] at later
            exact later
          · rw [takenStreak_of_unsure unsure]
            push_cast
            omega
      · rw [if_neg sure]
        push_cast
        omega

end Streak

/-! ### Runs -/

/-- The counts of every entry are bounded, a confident entry predicts taken no
more often than it remembers before it predicts not-taken, and an exit that is
predicted with confidence comes when the two counts are equal. -/
structure CountsExits (loops : LoopPredictor) : Prop where
  within : ∀ set way, LoopPredictor.Way set way → (loops.entry set way).CountsWithin
  streaks : ∀ set way, LoopPredictor.Way set way → (loops.entry set way).confident = true →
    ∀ branches, (takenStreak set way loops branches : Int) ≤
      (loops.entry set way).pastIterCnt.value
  exits : ∀ ip, (loops.predictedInfo ip).hit = true →
    (loops.predictedInfo ip).isValidLoopPrediction = true →
    (loops.predictedInfo ip).prediction = false →
    (loops.foundEntry ip).currIterCnt.value = (loops.foundEntry ip).pastIterCnt.value

theorem countsExits_of_within {loops : LoopPredictor}
    (within : ∀ set way, LoopPredictor.Way set way → (loops.entry set way).CountsWithin) :
    CountsExits loops := by
  refine ⟨within, ?_, ?_⟩
  · intro set way inside sure branches
    have bound := (within set way inside).confident ((LoopEntry.confident_iff _).mp sure)
    have streak := takenStreak_le inside branches bound
    have nonnegative := (loops.entry set way).currIterCnt.atLeast
    omega
  · intro ip hit _valid expected
    cases found : loops.hitWay ip with
    | none =>
        rw [(LoopPredictor.predictedInfo_miss found).1] at hit
        cases hit
    | some way =>
        rw [LoopPredictor.predictedInfo_hit found] at expected
        have unexpecting : ¬(loops.entry (setIndex ip) way).predicts = true :=
          Bool.eq_false_iff.mp expected
        rw [LoopPredictor.foundEntry_hit found]
        by_contra different
        exact unexpecting ((LoopEntry.predicts_iff _).mpr different)

theorem reaches_countsExits (memory : LoopPredictor) (calls : List Call)
    (session : Session LoopPredictor)
    (ran : loopModule.machine.run (PredictorModule.start memory.loopPredictorInit) calls =
      some session) : CountsExits session.predictor := by
  obtain ⟨history, recorded⟩ := exists_reachesWith memory calls session ran
  have remembered := reachesWith_remembered memory calls session history recorded
  apply countsExits_of_within
  intro set way inside
  exact (remembered set way inside).counted.countsWithin

private theorem exit_run :
    (loopModule.machine.run (PredictorModule.start (default : LoopPredictor).loopPredictorInit)
      (PredictorModule.callsOf (recountedOutcomes ++ [(64, true), (64, true)]))).map
        (fun session => session.predictor.predictedInfo 64) =
      some { hit := true, index := 0, way := 0, prediction := false,
             isValidLoopPrediction := true } := by
  decide +kernel

theorem reaches_countsExits_exit :
    ∃ session, loopModule.machine.run
        (PredictorModule.start (default : LoopPredictor).loopPredictorInit)
        (PredictorModule.callsOf (recountedOutcomes ++ [(64, true), (64, true)])) = some session ∧
      (session.predictor.predictedInfo 64).isValidLoopPrediction = true ∧
      (session.predictor.predictedInfo 64).prediction = false ∧
      CountsExits session.predictor := by
  obtain ⟨session, ran, info⟩ := Option.map_eq_some_iff.mp exit_run
  refine ⟨session, ran, ?_, ?_, reaches_countsExits default _ session ran⟩
  · rw [info]
  · rw [info]

end ChampSim.LTage

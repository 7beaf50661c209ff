/-
A branch that has become constant under L-TAGE.

The embedded TAGE settles as the stand-alone one does. A loop entry can still
overrule it: for an outcome that is not taken this ends after two branches, for
a taken one it goes wrong at most once, at the exit that a confident entry
expects, and then everything before and after is right.
-/

import ChampSim.Tage.Convergence
import ChampSim.LTage.LoopTraining
import ChampSim.LTage.Simulation
import Mathlib.Data.Finset.Card

set_option autoImplicit false

namespace ChampSim.LTage

open Msl Branch

/-! ### The loop predictor under a constant branch -/

section LoopPart

variable {loops : LoopPredictor} {ip : Address} {way : Int}

theorem hitWay_branch_hit (found : loops.hitWay ip = some way) (taken : Bool) :
    (loopModule.branch loops (ip, taken)).hitWay ip = some way := by
  rw [← found]
  apply List.find?_congr
  intro other member
  rw [entry_branch loops ip taken (LoopPredictor.way_setIndex ip member), if_pos rfl,
    LoopPredictor.updatedWay_hit found]
  by_cases same : other = way
  · rw [if_pos same, LoopEntry.learn_tag]
  · rw [if_neg same]

theorem entry_branch_hit (found : loops.hitWay ip = some way) (taken : Bool) :
    (loopModule.branch loops (ip, taken)).entry (setIndex ip) way =
      (loops.entry (setIndex ip) way).learn taken := by
  have member := (LoopPredictor.hitWay_some found).1
  rw [entry_branch loops ip taken (LoopPredictor.way_setIndex ip member), if_pos rfl,
    LoopPredictor.updatedWay_hit found, if_pos rfl]

theorem hitWay_branch_exit (missed : loops.hitWay ip = none) :
    (loopModule.branch loops (ip, false)).hitWay ip = none := by
  rw [← missed]
  apply List.find?_congr
  intro other member
  rw [entry_branch loops ip false (LoopPredictor.way_setIndex ip member), if_pos rfl,
    LoopPredictor.updatedWay_exit missed]

theorem hitWay_branch_aged (missed : loops.hitWay ip = none) (full : loops.freeWay ip = none) :
    (loopModule.branch loops (ip, true)).hitWay ip = none := by
  rw [← missed]
  apply List.find?_congr
  intro other member
  rw [entry_branch loops ip true (LoopPredictor.way_setIndex ip member), if_pos rfl,
    LoopPredictor.updatedWay_aged missed full]
  rfl

def Quiet (loops : LoopPredictor) (ip : Address) : Prop :=
  ∀ way, loops.hitWay ip = some way → ¬(loops.entry (setIndex ip) way).confident = true

theorem not_confident_of_zero {entry : LoopEntry} (zero : entry.confidence.value = 0) :
    ¬entry.confident = true := by
  intro sure
  have third := (LoopEntry.confident_iff entry).mp sure
  omega

theorem not_confident_learn {entry : LoopEntry} (unsure : ¬entry.confident = true) :
    ¬(entry.learn true).confident = true := by
  by_cases advances : entry.Advances
  · obtain ⟨age, same⟩ := LoopEntry.learn_advance advances
    rw [same]
    exact unsure
  · rw [LoopEntry.learn_beyond advances]
    exact not_confident_of_zero rfl

theorem quiet_of_hit (found : loops.hitWay ip = some way)
    (unsure : ¬(loops.entry (setIndex ip) way).confident = true) : Quiet loops ip := by
  intro other same
  have equal : some way = some other := found.symm.trans same
  cases equal
  exact unsure

theorem Quiet.branch (quiet : Quiet loops ip) : Quiet (loopModule.branch loops (ip, true)) ip := by
  cases found : loops.hitWay ip with
  | some way =>
      apply quiet_of_hit (hitWay_branch_hit found true)
      rw [entry_branch_hit found]
      exact not_confident_learn (quiet way found)
  | none =>
      cases free : loops.freeWay ip with
      | some chosen =>
          have holds := holds_of_allocation found free
          apply quiet_of_hit holds.hitWay
          rw [holds.entryHere]
          exact not_confident_of_zero rfl
      | none =>
          intro way impossible
          rw [hitWay_branch_aged found free] at impossible
          cases impossible

theorem quiet_of_wrong_exit (found : loops.hitWay ip = some way)
    (confident : (loops.entry (setIndex ip) way).confident = true)
    (expected : (loops.entry (setIndex ip) way).predicts = false) :
    Quiet (loopModule.branch loops (ip, true)) ip := by
  apply quiet_of_hit (hitWay_branch_hit found true)
  rw [entry_branch_hit found, LoopEntry.learn_beyond]
  · exact not_confident_of_zero rfl
  · rintro (⟨_sure, different⟩ | ⟨unsure, _room⟩)
    · rw [(LoopEntry.predicts_iff _).mpr different] at expected
      cases expected
    · exact unsure confident

theorem learn_exit_current (entry : LoopEntry) : (entry.learn false).currIterCnt.value = 0 := by
  by_cases completes : entry.Completes
  · obtain ⟨age, same⟩ := LoopEntry.learn_complete completes
    rw [same]
    rfl
  · rw [LoopEntry.learn_early completes]
    rfl

theorem learn_exit_past {entry : LoopEntry} (idle : entry.currIterCnt.value = 0) :
    (entry.learn false).pastIterCnt.value = 0 := by
  by_cases completes : entry.Completes
  · obtain ⟨age, same⟩ := LoopEntry.learn_complete completes
    rw [same]
    exact idle
  · rw [LoopEntry.learn_early completes]
    rfl

/-- Every entry that the branch hits expects it not to be taken. -/
def Resting (loops : LoopPredictor) (ip : Address) : Prop :=
  ∀ way, loops.hitWay ip = some way →
    (loops.entry (setIndex ip) way).currIterCnt.value = 0 ∧
      (loops.entry (setIndex ip) way).pastIterCnt.value = 0

theorem resting_of_exits (count : Nat) (exits : 2 ≤ count) :
    Resting (loopModule.feed loops (List.replicate count (ip, false))) ip := by
  cases found : loops.hitWay ip with
  | none =>
      have missed : ∀ count,
          (loopModule.feed loops (List.replicate count (ip, false))).hitWay ip = none := by
        intro count
        induction count with
        | zero => exact found
        | succ count ih =>
            rw [PredictorModule.feed_replicate_succ]
            exact hitWay_branch_exit ih
      intro way impossible
      rw [missed count] at impossible
      cases impossible
  | some way =>
      have hits : ∀ count,
          (loopModule.feed loops (List.replicate count (ip, false))).hitWay ip = some way := by
        intro count
        induction count with
        | zero => exact found
        | succ count ih =>
            rw [PredictorModule.feed_replicate_succ]
            exact hitWay_branch_hit ih false
      obtain ⟨earlier, same⟩ := Nat.exists_eq_add_of_le' exits
      subst same
      intro other equal
      rw [hits (earlier + 2)] at equal
      cases equal
      rw [PredictorModule.feed_replicate_succ, entry_branch_hit (hits (earlier + 1)) false,
        PredictorModule.feed_replicate_succ, entry_branch_hit (hits earlier) false]
      exact ⟨learn_exit_current _, learn_exit_past (learn_exit_current _)⟩

theorem Quiet.valid (quiet : Quiet loops ip) :
    (loops.predictedInfo ip).isValidLoopPrediction = false := by
  cases found : loops.hitWay ip with
  | none => exact (LoopPredictor.predictedInfo_miss found).2
  | some way =>
      rw [LoopPredictor.predictedInfo_hit found]
      exact Bool.eq_false_iff.mpr (quiet way found)

theorem valid_hit (valid : (loops.predictedInfo ip).isValidLoopPrediction = true) :
    ∃ way, loops.hitWay ip = some way ∧
      (loops.entry (setIndex ip) way).confident = true ∧
      (loops.predictBranch ip).1 = (loops.entry (setIndex ip) way).predicts := by
  cases found : loops.hitWay ip with
  | none =>
      rw [(LoopPredictor.predictedInfo_miss found).2] at valid
      cases valid
  | some way =>
      rw [LoopPredictor.predictedInfo_hit found] at valid
      rw [LoopPredictor.predictBranch_hit found]
      exact ⟨way, rfl, valid, rfl⟩

end LoopPart

/-! ### TAGE and L-TAGE under a constant branch -/

theorem tage_settles (state : Tage × Rand) (ip : Address) (taken : Bool) {count : Nat}
    (settled : 720 ≤ count) :
    Tage.predictor.constantPrediction state (ip, taken) count = taken := by
  have long : Tage.ghistBits + 5 ≤ count := Nat.le_trans (by decide) settled
  exact Tage.constantPrediction_settles state ip taken count long

section Constant

variable {state : LTage × Rand} {ip : Address}

def loopsAfter (state : LTage × Rand) (ip : Address) (taken : Bool) (count : Nat) :
    LoopPredictor :=
  loopModule.feed (loopPart state) (List.replicate count (ip, taken))

theorem constantPrediction_choice (state : LTage × Rand) (ip : Address) (taken : Bool)
    (count : Nat) :
    predictor.constantPrediction state (ip, taken) count =
      if ((loopsAfter state ip taken count).predictedInfo ip).isValidLoopPrediction then
        ((loopsAfter state ip taken count).predictBranch ip).1
      else Tage.predictor.constantPrediction (tagePart state) (ip, taken) count := by
  have loops := projectsTo_loopPart.feed (List.replicate count (ip, taken)) state
  have tage := projectsTo_tagePart.feed (List.replicate count (ip, taken)) state
  unfold PredictorModule.constantPrediction loopsAfter
  rw [← loops, ← tage]
  exact predictBranch_choice _ ip

theorem quiet_later {count later : Nat} (quiet : Quiet (loopsAfter state ip true count) ip)
    (le : count ≤ later) : Quiet (loopsAfter state ip true later) ip := by
  induction later, le using Nat.le_induction with
  | base => exact quiet
  | succ later _le ih =>
      unfold loopsAfter at ih ⊢
      rw [PredictorModule.feed_replicate_succ]
      exact ih.branch

/-- A wrong prediction of a settled L-TAGE is a wrong loop prediction. -/
theorem wrong_valid {taken : Bool} {count : Nat} (settled : 720 ≤ count)
    (wrong : predictor.constantPrediction state (ip, taken) count ≠ taken) :
    ((loopsAfter state ip taken count).predictedInfo ip).isValidLoopPrediction = true ∧
      ((loopsAfter state ip taken count).predictBranch ip).1 ≠ taken := by
  rw [constantPrediction_choice] at wrong
  by_cases valid :
      ((loopsAfter state ip taken count).predictedInfo ip).isValidLoopPrediction = true
  · rw [if_pos valid] at wrong
    exact ⟨valid, wrong⟩
  · rw [if_neg valid] at wrong
    exact absurd (tage_settles (tagePart state) ip taken settled) wrong

theorem exits_settled {count : Nat} (settled : 720 ≤ count) :
    predictor.constantPrediction state (ip, false) count = false := by
  by_contra wrong
  obtain ⟨valid, wrongLoop⟩ := wrong_valid settled wrong
  obtain ⟨way, found, _confident, predicted⟩ := valid_hit valid
  obtain ⟨current, past⟩ := resting_of_exits count (by omega) way found
  rw [predicted] at wrongLoop
  exact wrongLoop (LoopEntry.predicts_false (current.trans past.symm))

theorem others_right {count : Nat} (settled : 720 ≤ count)
    (wrong : predictor.constantPrediction state (ip, true) count ≠ true) (other : Nat)
    (different : other ≠ count) :
    predictor.constantPrediction state (ip, true) other = true := by
  have wrongExit : ∀ position,
      ((loopsAfter state ip true position).predictedInfo ip).isValidLoopPrediction = true →
      ((loopsAfter state ip true position).predictBranch ip).1 ≠ true →
      Quiet (loopsAfter state ip true (position + 1)) ip := by
    intro position valid exited
    obtain ⟨way, found, confident, predicted⟩ := valid_hit valid
    rw [predicted] at exited
    unfold loopsAfter
    rw [PredictorModule.feed_replicate_succ]
    exact quiet_of_wrong_exit found confident (Bool.eq_false_iff.mpr exited)
  obtain ⟨valid, exited⟩ := wrong_valid settled wrong
  by_contra alsoWrong
  rcases Nat.lt_or_gt_of_ne different with before | after
  · have stillLoud : ¬Quiet (loopsAfter state ip true (other + 1)) ip := by
      intro quiet
      rw [(quiet_later quiet before).valid] at valid
      cases valid
    rw [constantPrediction_choice] at alsoWrong
    by_cases overruled :
        ((loopsAfter state ip true other).predictedInfo ip).isValidLoopPrediction = true
    · rw [if_pos overruled] at alsoWrong
      exact stillLoud (wrongExit other overruled alsoWrong)
    · apply stillLoud
      have quiet : Quiet (loopsAfter state ip true other) ip := by
        intro way found confident
        rw [LoopPredictor.predictedInfo_hit found] at overruled
        exact overruled confident
      exact quiet_later quiet (Nat.le_succ other)
  · have quiet := quiet_later (wrongExit count valid exited) after
    have overruled := (wrong_valid (Nat.le_of_lt (Nat.lt_of_le_of_lt settled after)) alsoWrong).1
    rw [quiet.valid] at overruled
    cases overruled

end Constant

/-- The wrong predictions among the first `length` of a constant branch. -/
def mispredictions (prediction : Nat → Bool) (taken : Bool) (length : Nat) : Nat :=
  ((Finset.range length).filter (fun count => prediction count ≠ taken)).card

/-- At most one late prediction is wrong, and only if all others are right. -/
def SettlesBut (prediction : Nat → Bool) (taken : Bool) : Prop :=
  ∀ count, 720 ≤ count → prediction count ≠ taken →
    taken = true ∧ ∀ other, other ≠ count → prediction other = taken

theorem SettlesBut.mispredictions_le {prediction : Nat → Bool} {taken : Bool}
    (settles : SettlesBut prediction taken) (length : Nat) :
    mispredictions prediction taken length ≤ 720 := by
  unfold mispredictions
  by_cases late : ∃ count, 720 ≤ count ∧ prediction count ≠ taken
  · obtain ⟨count, beyond, wrong⟩ := late
    have single : (Finset.range length).filter (fun count => prediction count ≠ taken) ⊆
        {count} := by
      intro other member
      rw [Finset.mem_singleton]
      by_contra different
      exact (Finset.mem_filter.mp member).2 ((settles count beyond wrong).2 other different)
    have bound := Finset.card_le_card single
    rw [Finset.card_singleton] at bound
    omega
  · have early : (Finset.range length).filter (fun count => prediction count ≠ taken) ⊆
        Finset.range 720 := by
      intro other member
      rw [Finset.mem_range]
      by_contra beyond
      exact late ⟨other, by omega, (Finset.mem_filter.mp member).2⟩
    have bound := Finset.card_le_card early
    rw [Finset.card_range] at bound
    exact bound

theorem tage_settlesBut (state : Tage × Rand) (ip : Address) (taken : Bool) :
    SettlesBut (Tage.predictor.constantPrediction state (ip, taken)) taken := by
  intro count settled wrong
  exact absurd (tage_settles state ip taken settled) wrong

theorem ltage_settlesBut (state : LTage × Rand) (ip : Address) (taken : Bool) :
    SettlesBut (predictor.constantPrediction state (ip, taken)) taken := by
  intro count settled wrong
  cases taken with
  | false => exact absurd (exits_settled settled) wrong
  | true => exact ⟨rfl, others_right settled wrong⟩

/-- TAGE is right from the 721st branch on. L-TAGE may still take one exit of a
loop that no longer ends, and then it makes no other mistake. -/
theorem constant_branch_settles (ip : Address) (taken : Bool) :
    (∀ state : Tage × Rand,
      (∀ count, 720 ≤ count → Tage.predictor.constantPrediction state (ip, taken) count = taken) ∧
      ∀ length, mispredictions (Tage.predictor.constantPrediction state (ip, taken)) taken length ≤
        720) ∧
    (∀ state : LTage × Rand,
      SettlesBut (predictor.constantPrediction state (ip, taken)) taken ∧
      ∀ length, mispredictions (predictor.constantPrediction state (ip, taken)) taken length ≤
        720) := by
  constructor
  · intro state
    constructor
    · intro count settled
      exact tage_settles state ip taken settled
    · exact (tage_settlesBut state ip taken).mispredictions_le
  · intro state
    exact ⟨ltage_settlesBut state ip taken, (ltage_settlesBut state ip taken).mispredictions_le⟩

/-! ### A late exit -/

def trainedLoop : List (Address × Bool) := (tripOutcomes 1000 3003).map (fun taken => (64, taken))

theorem tripOutcomes_again (trips executions further : Nat) (inside : further ≤ trips) :
    tripOutcomes trips (executions * (trips + 1) + further) =
      tripOutcomes trips (executions * (trips + 1)) ++ List.replicate further true := by
  induction further with
  | zero => rw [List.replicate_zero, List.append_nil, Nat.add_zero]
  | succ further ih =>
      have taken : tripOutcome trips (executions * (trips + 1) + further) = true := by
        unfold tripOutcome
        rw [Nat.mul_add_mod_of_lt (by omega)]
        exact decide_eq_true (by omega)
      rw [← Nat.add_assoc, tripOutcomes_succ, ih (by omega), taken, List.replicate_succ',
        List.append_assoc]

private theorem fresh_loops_free :
    (default : LoopPredictor).loopPredictorInit.hitWay 64 = none ∧
      (default : LoopPredictor).loopPredictorInit.freeWay 64 = some 0 := by
  decide +kernel

/-- The exit that the trained entry expects after 1000 further iterations. -/
theorem loopsAfter_trainedLoop (stream : Rand) :
    Holds (loopsAfter (predictor.feed (fresh default, stream) trainedLoop) 64 true 1000) 64 0
      (tripEntry (loopTag 64) 1000 4003) := by
  have outcomes : tripOutcomes 1000 4003 = tripOutcomes 1000 3003 ++ List.replicate 1000 true :=
    tripOutcomes_again 1000 3 1000 (Nat.le_refl 1000)
  have branches : trainedLoop ++ List.replicate 1000 (64, true) =
      (tripOutcomes 1000 4003).map (fun taken => ((64 : Address), taken)) := by
    rw [outcomes, List.map_append, List.map_replicate]
    rfl
  have whole : loopsAfter (predictor.feed (fresh default, stream) trainedLoop) 64 true 1000 =
      loopModule.feed (default : LoopPredictor).loopPredictorInit
        ((tripOutcomes 1000 4003).map (fun taken => ((64 : Address), taken))) := by
    unfold loopsAfter
    rw [projectsTo_loopPart.feed, ← PredictorModule.feed_append, branches]
    rfl
  rw [whole]
  apply holds_tripEntry fresh_loops_free.1 fresh_loops_free.2 (by omega) (by omega)
  · exact othersElsewhere_map 64 _
  · exact ownOutcomes_map 64 _

theorem late_exit_mispredicted :
    ¬∀ (memory : LTage) (stream : Rand) (calls : List Call) (session : Session (LTage × Rand)),
      predictor.machine.run (PredictorModule.start (fresh memory, stream)) calls = some session →
      ∀ (ip : Address) (taken : Bool) (count : Nat), 720 ≤ count →
        predictor.constantPrediction session.predictor (ip, taken) count = taken := by
  intro always
  obtain ⟨previous, ran⟩ := predictor.run_callsOf (fresh default, fun _ => 0) none trainedLoop
  have settled := always default (fun _ => 0) _ _ ran 64 true 1000 (by omega)
  have holds := loopsAfter_trainedLoop (fun _ => 0)
  have trip := trip_tripEntry (loopTag 64) 1000 4003 (by omega) (by omega) (by omega)
  obtain ⟨confident, predicts⟩ := trip.settled (by omega) (by omega)
  dsimp only at settled
  rw [constantPrediction_choice, holds.predicted.1, confident, if_pos rfl, holds.predicted.2,
    predicts] at settled
  revert settled
  decide

end ChampSim.LTage

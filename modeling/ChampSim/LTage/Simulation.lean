/-
L-TAGE of branch/LTage/ltage.cc: the embedded TAGE beside the loop predictor.

Nothing flows from the loop predictor into the embedded TAGE, so L-TAGE projects
onto the stand-alone TAGE call by call, random numbers included.
-/

import ChampSim.LTage.LoopPredictor
import ChampSim.LTage.EmbeddedTage

set_option autoImplicit false

namespace ChampSim

open Branch LTage

structure LTage where
  tagePredictor : Tage
  loopPredictor : LoopPredictor
deriving Inhabited

namespace LTage

def predictBranch (ltage : LTage) (ip : Address) : Bool × LTage :=
  let loop := ltage.loopPredictor.predictBranch ip
  let tage := EmbeddedTage.predictBranch ltage.tagePredictor ip
  let predicted := { tagePredictor := tage.2, loopPredictor := loop.2 }
  if loop.2.loopBranchInfo.isValidLoopPrediction then (loop.1, predicted)
  else (tage.1, predicted)

def lastBranchResult (ltage : LTage) (ip : Address) (taken : Bool) (stream : Rand) :
    LTage × Rand :=
  let loop := ltage.loopPredictor.lastBranchResult ip taken
  let tage := EmbeddedTage.lastBranchResult ltage.tagePredictor ip taken stream
  ({ tagePredictor := tage.1, loopPredictor := loop }, tage.2)

def initializeBranchPredictor (ltage : LTage) : LTage :=
  { tagePredictor := EmbeddedTage.initializeBranchPredictor ltage.tagePredictor
    loopPredictor := ltage.loopPredictor.loopPredictorInit }

def fresh (memory : LTage) : LTage :=
  ({ memory with tagePredictor := Tage.construct memory.tagePredictor }).initializeBranchPredictor

/-- L-TAGE beside the values that `rand()` has not returned yet. -/
def predictor : PredictorModule (LTage × Rand) where
  predictBranch state ip :=
    ((state.1.predictBranch ip).1, ((state.1.predictBranch ip).2, state.2))
  lastBranchResult state ip taken := state.1.lastBranchResult ip taken state.2

/-! ### The two parts of L-TAGE -/

def tagePart (state : LTage × Rand) : Tage × Rand := (state.1.tagePredictor, state.2)

def loopPart (state : LTage × Rand) : LoopPredictor := state.1.loopPredictor

theorem predictBranch_parts (ltage : LTage) (ip : Address) :
    (ltage.predictBranch ip).2 =
      { tagePredictor := (ltage.tagePredictor.predictBranch ip).2
        loopPredictor := (ltage.loopPredictor.predictBranch ip).2 } := by
  unfold predictBranch
  rw [EmbeddedTage.predictBranch_eq]
  dsimp only
  split
  · rfl
  · rfl

theorem predictBranch_choice (ltage : LTage) (ip : Address) :
    (ltage.predictBranch ip).1 =
      if (ltage.loopPredictor.predictedInfo ip).isValidLoopPrediction then
        (ltage.loopPredictor.predictBranch ip).1
      else (ltage.tagePredictor.predictBranch ip).1 := by
  unfold predictBranch
  rw [EmbeddedTage.predictBranch_eq]
  dsimp only
  exact apply_ite Prod.fst _ _ _

theorem projectsTo_tagePart : PredictorModule.ProjectsTo predictor Tage.predictor tagePart := by
  constructor
  · intro state ip
    change tagePart ((state.1.predictBranch ip).2, state.2) = _
    rw [predictBranch_parts]
    rfl
  · intro state ip taken
    change tagePart (state.1.lastBranchResult ip taken state.2) = _
    unfold lastBranchResult
    rw [EmbeddedTage.lastBranchResult_eq]
    rfl

theorem projectsTo_loopPart : PredictorModule.ProjectsTo predictor loopModule loopPart := by
  constructor
  · intro state ip
    change loopPart ((state.1.predictBranch ip).2, state.2) = _
    rw [predictBranch_parts]
    rfl
  · intro state ip taken
    rfl

theorem fresh_tagePredictor (memory : LTage) (alone : Tage) :
    (fresh memory).tagePredictor = Tage.fresh alone := by
  unfold fresh initializeBranchPredictor Tage.fresh
  rw [EmbeddedTage.initializeBranchPredictor_eq]
  rfl

/-! ### Lockstep -/

/-- L-TAGE and a stand-alone TAGE after the same calls. -/
structure InStep (ltage : Session (LTage × Rand)) (tage : Session (Tage × Rand)) : Prop where
  embedded : ltage.predictor.1.tagePredictor = tage.predictor.1
  stream : ltage.predictor.2 = tage.predictor.2
  predicted : ltage.predicted = tage.predicted
  overruled : ∀ ip way, ltage.predictor.1.loopPredictor.hitWay ip = some way →
    (ltage.predictor.1.loopPredictor.entry (setIndex ip) way).confidence.value = 3 →
      (ltage.predictor.1.predictBranch ip).1 =
        (ltage.predictor.1.loopPredictor.predictBranch ip).1
  otherwise : ∀ ip, (∀ way, ltage.predictor.1.loopPredictor.hitWay ip = some way →
    (ltage.predictor.1.loopPredictor.entry (setIndex ip) way).confidence.value ≠ 3) →
      (ltage.predictor.1.predictBranch ip).1 = (tage.predictor.1.predictBranch ip).1

theorem inStep_project (session : Session (LTage × Rand)) :
    InStep session (PredictorModule.projectSession tagePart session) := by
  constructor
  · rfl
  · rfl
  · rfl
  · intro ip way found confident
    rw [predictBranch_choice, LoopPredictor.predictedInfo_hit found]
    exact if_pos ((LoopEntry.confident_iff _).mpr confident)
  · intro ip unsure
    rw [predictBranch_choice]
    apply if_neg
    cases found : session.predictor.1.loopPredictor.hitWay ip with
    | none =>
        rw [(LoopPredictor.predictedInfo_miss found).2]
        exact Bool.false_ne_true
    | some way =>
        rw [LoopPredictor.predictedInfo_hit found]
        intro confident
        exact unsure way found ((LoopEntry.confident_iff _).mp confident)

/-- After every sequence of calls either both are in step or both have
rejected it. -/
theorem ltage_inStep_tage (memory : LTage) (alone : Tage) (stream : Rand) (calls : List Call) :
    (∃ ltage tage,
      predictor.machine.run (PredictorModule.start (fresh memory, stream)) calls = some ltage ∧
      Tage.predictor.machine.run (PredictorModule.start (Tage.fresh alone, stream)) calls =
        some tage ∧ InStep ltage tage) ∨
    (predictor.machine.run (PredictorModule.start (fresh memory, stream)) calls = none ∧
      Tage.predictor.machine.run (PredictorModule.start (Tage.fresh alone, stream)) calls =
        none) := by
  have lockstep := projectsTo_tagePart.run calls (PredictorModule.start (fresh memory, stream))
  have begins : PredictorModule.projectSession tagePart
      (PredictorModule.start (fresh memory, stream)) =
        PredictorModule.start (Tage.fresh alone, stream) := by
    unfold PredictorModule.projectSession PredictorModule.start tagePart
    rw [fresh_tagePredictor memory alone]
  rw [begins] at lockstep
  cases ran : predictor.machine.run (PredictorModule.start (fresh memory, stream)) calls with
  | none =>
      rw [ran] at lockstep
      exact Or.inr ⟨rfl, lockstep.symm⟩
  | some session =>
      rw [ran] at lockstep
      exact Or.inl ⟨session, _, rfl, lockstep.symm, inStep_project session⟩

end LTage

end ChampSim

/-
Tables of saturating counters, and the two predictors that are nothing else:
`bimodal` and `gshare`.

A result trains one counter. The counter that a prediction reads has counted
the results of its own class and no others: for `bimodal` those of the same
remainder, for `gshare` those whose address and history have the same hash.
-/

import ChampSim.Branch.Module
import ChampSim.Library.CArray
import ChampSim.Library.ShiftRegister
import ChampSim.Msl.Fwcounter

set_option autoImplicit false

namespace ChampSim.Branch

open Msl
open ShiftRegister (push)
open Transition

/-! ### Tables of counters -/

abbrev CounterTable (size : Nat) := CArray size (Fwcounter 2)

/-- `table[index] += taken ? 1 : -1`. -/
def CounterTable.train {size : Nat} (table : CounterTable size) (index : Fin size) (taken : Bool) :
    CounterTable size :=
  table.assign index ((table.cells index).addAssign (if taken then 1 else -1))

def CounterTable.trainEach {size : Nat} (table : CounterTable size)
    (results : List (Fin size × Bool)) : CounterTable size :=
  results.foldl (fun trained result => trained.train result.1 result.2) table

def ofClass {size : Nat} (index : Fin size) (results : List (Fin size × Bool)) : List Bool :=
  (results.filter (fun result => decide (result.1 = index))).map Prod.snd

/-- A counter that is trained with some results, one after the other. -/
def countEach (counter : Fwcounter 2) (results : List Bool) : Fwcounter 2 :=
  results.foldl (fun trained taken => trained.addAssign (if taken then 1 else -1)) counter

namespace CounterTable

variable {size : Nat}

theorem trainEach_cells (table : CounterTable size) (results : List (Fin size × Bool))
    (index : Fin size) :
    (table.trainEach results).cells index =
      countEach (table.cells index) (ofClass index results) := by
  induction results generalizing table with
  | nil => rfl
  | cons result rest ih =>
      change ((table.train result.1 result.2).trainEach rest).cells index = _
      rw [ih]
      unfold ofClass
      by_cases same : result.1 = index
      · subst same
        rw [List.filter_cons_of_pos (by simp)]
        unfold train
        rw [CArray.cells_assign_self]
        rfl
      · rw [List.filter_cons_of_neg (by simp [same])]
        unfold train
        rw [CArray.cells_assign_other table (Ne.symm same)]

end CounterTable

/-! ### What a counter says of its last results -/

section Counters

variable (counter : Fwcounter 2)

theorem countEach_snoc (results : List Bool) (taken : Bool) :
    countEach counter (results ++ [taken]) =
      (countEach counter results).addAssign (if taken then 1 else -1) := by
  unfold countEach
  rw [List.foldl_append]
  rfl

/-- Results that are all taken raise a counter by one each, up to its maximum. -/
theorem countEach_taken (results : List Bool) (count : Nat) :
    min (count : Int) 3 ≤ (countEach counter (results ++ List.replicate count true)).value := by
  induction count with
  | zero =>
      rw [List.replicate_zero, List.append_nil]
      have atLeast := (countEach counter results).atLeast
      omega
  | succ count ih =>
      rw [List.replicate_succ', ← List.append_assoc, countEach_snoc]
      simp only [if_true, BaseFwcounter.addAssign_one_value]
      omega

/-- Results that are all not taken lower it by one each, down to its minimum. -/
theorem countEach_notTaken (results : List Bool) (count : Nat) :
    (countEach counter (results ++ List.replicate count false)).value ≤
      max (3 - (count : Int)) 0 := by
  induction count with
  | zero =>
      rw [List.replicate_zero, List.append_nil]
      have atMost := (countEach counter results).atMost
      omega
  | succ count ih =>
      rw [List.replicate_succ', ← List.append_assoc, countEach_snoc]
      simp only [Bool.false_eq_true, if_false, BaseFwcounter.addAssign_neg_one,
        BaseFwcounter.subAssign_one_value]
      omega

end Counters

/-! ### Predictors that learn from results only -/

def resultsOf (calls : List Call) : List (Address × Bool) :=
  calls.filterMap (fun call =>
    match call with
    | .predictBranch _ => none
    | .lastBranchResult ip taken => some (ip, taken))

/-- When a prediction changes nothing, a run is the results of its calls. -/
theorem PredictorModule.run_results {State : Type} (predictor : PredictorModule State)
    (still : ∀ state ip, (predictor.predictBranch state ip).2 = state) (calls : List Call)
    (session last : Session State) (ran : predictor.machine.run session calls = some last) :
    last.predictor = (resultsOf calls).foldl (fun state result =>
      predictor.lastBranchResult state result.1 result.2) session.predictor := by
  induction calls generalizing session with
  | nil =>
      cases ran
      rfl
  | cons call rest ih =>
      rw [Machine.run_cons] at ran
      obtain ⟨next, stepped, others⟩ := Option.bind_eq_some_iff.mp ran
      rw [ih next others]
      cases call with
      | predictBranch ip =>
          cases stepped
          rw [still]
          rfl
      | lastBranchResult ip taken =>
          obtain ⟨_paired, same⟩ :=
            (predictor.step_lastBranchResult_iff session next ip taken).mp stepped
          rw [same]
          rfl

/-! ### `bimodal` -/

structure Bimodal where
  bimodalTable : CounterTable 16384

namespace Bimodal

def prime : Nat := 16381

theorem hash_lt (ip : Address) : ip.toNat % prime < 16384 := by
  unfold prime
  omega

def hash (ip : Address) : Fin 16384 := ⟨ip.toNat % prime, hash_lt ip⟩

def initial : Bimodal := ⟨default⟩

def predictBranch (state : Bimodal) (ip : Address) : Bool × Bimodal :=
  let value := state.bimodalTable.cells (hash ip)
  (decide (value.maximum / 2 < value.value), state)

def lastBranchResult (state : Bimodal) (ip : Address) (taken : Bool) : Bimodal :=
  ⟨state.bimodalTable.train (hash ip) taken⟩

def predictor : PredictorModule Bimodal := ⟨predictBranch, lastBranchResult⟩

/-- The results of the branches that share a counter with an address. -/
def seen (results : List (Address × Bool)) (ip : Address) : List Bool :=
  ofClass (hash ip) (results.map (fun result => (hash result.1, result.2)))

theorem foldl_results (results : List (Address × Bool)) (state : Bimodal) :
    results.foldl (fun reached result => reached.lastBranchResult result.1 result.2) state =
      ⟨state.bimodalTable.trainEach (results.map (fun result => (hash result.1, result.2)))⟩ := by
  induction results generalizing state with
  | nil => rfl
  | cons result rest ih => exact ih (state.lastBranchResult result.1 result.2)

/-- In every run a prediction is the count of what its class has seen. It
follows two equal results in a row. -/
theorem run_counts (calls : List Call) (last : Session Bimodal)
    (ran : predictor.machine.run (PredictorModule.start initial) calls = some last)
    (ip : Address) :
    (predictBranch last.predictor ip).1 =
        decide (1 < (countEach (Fwcounter.zero 2) (seen (resultsOf calls) ip)).value) ∧
      ∀ earlier taken, seen (resultsOf calls) ip = earlier ++ [taken, taken] →
        (predictBranch last.predictor ip).1 = taken := by
  have reached := predictor.run_results (fun _state _ip => rfl) calls _ last ran
  have whole : last.predictor = ⟨initial.bimodalTable.trainEach
      ((resultsOf calls).map (fun result => (hash result.1, result.2)))⟩ :=
    reached.trans (foldl_results (resultsOf calls) initial)
  have predicts : (predictBranch last.predictor ip).1 =
      decide (1 < (countEach (Fwcounter.zero 2) (seen (resultsOf calls) ip)).value) := by
    rw [whole]
    unfold predictBranch
    dsimp only
    rw [CounterTable.trainEach_cells]
    rfl
  refine ⟨predicts, ?_⟩
  intro earlier taken same
  rw [predicts, same]
  cases taken with
  | true =>
      have raised := countEach_taken (Fwcounter.zero 2) earlier 2
      simp only [List.replicate_succ, List.replicate_zero] at raised
      apply decide_eq_true
      omega
  | false =>
      have lowered := countEach_notTaken (Fwcounter.zero 2) earlier 2
      simp only [List.replicate_succ, List.replicate_zero] at lowered
      apply decide_eq_false
      omega

end Bimodal

/-! ### `gshare` -/

structure Gshare where
  branchHistoryVector : BitVec 14
  gsHistoryTable : CounterTable 16384

namespace Gshare

def globalHistoryLength : Nat := 14

def gsHistoryTableSize : Nat := 16384

/-- The history and three parts of the address, one above the other. -/
def mixed (ip : Address) (bhVector : BitVec 14) : Nat :=
  bhVector.toNat ^^^ ip.slice 0 14 ^^^ ip.slice globalHistoryLength 14 ^^^
    ip.slice (2 * globalHistoryLength) 14

theorem gsTableHash_lt (ip : Address) (bhVector : BitVec 14) :
    mixed ip bhVector % gsHistoryTableSize < 16384 :=
  Nat.mod_lt _ (Nat.succ_pos _)

def gsTableHash (ip : Address) (bhVector : BitVec 14) : Fin 16384 :=
  ⟨mixed ip bhVector % gsHistoryTableSize, gsTableHash_lt ip bhVector⟩

def initial : Gshare := ⟨0, default⟩

def predictBranch (state : Gshare) (ip : Address) : Bool × Gshare :=
  let value := state.gsHistoryTable.cells (gsTableHash ip state.branchHistoryVector)
  (decide (value.maximum / 2 ≤ value.value), state)

def lastBranchResult (state : Gshare) (ip : Address) (taken : Bool) : Gshare where
  branchHistoryVector := push state.branchHistoryVector taken
  gsHistoryTable :=
    state.gsHistoryTable.train (gsTableHash ip state.branchHistoryVector) taken

def predictor : PredictorModule Gshare := ⟨predictBranch, lastBranchResult⟩

def historyFrom (bhVector : BitVec 14) (results : List (Address × Bool)) : BitVec 14 :=
  results.foldl (fun word result => push word result.2) bhVector

/-- The counter that each result trains: its class is the address with the
history before it. -/
def classesFrom : BitVec 14 → List (Address × Bool) → List (Fin 16384 × Bool)
  | _bhVector, [] => []
  | bhVector, result :: rest =>
      (gsTableHash result.1 bhVector, result.2) :: classesFrom (push bhVector result.2) rest

/-- The results whose address and history share a counter with an address and
the history now. -/
def seen (results : List (Address × Bool)) (ip : Address) : List Bool :=
  ofClass (gsTableHash ip (historyFrom 0 results)) (classesFrom 0 results)

theorem foldl_results (results : List (Address × Bool)) (state : Gshare) :
    results.foldl (fun reached result => reached.lastBranchResult result.1 result.2) state =
      ⟨historyFrom state.branchHistoryVector results,
        state.gsHistoryTable.trainEach (classesFrom state.branchHistoryVector results)⟩ := by
  induction results generalizing state with
  | nil => rfl
  | cons result rest ih => exact ih (state.lastBranchResult result.1 result.2)

theorem historyFrom_snoc (bhVector : BitVec 14) (results : List (Address × Bool))
    (result : Address × Bool) :
    historyFrom bhVector (results ++ [result]) = push (historyFrom bhVector results) result.2 := by
  unfold historyFrom
  rw [List.foldl_append]
  rfl

theorem getLsbD_historyFrom (results : List (Address × Bool)) :
    ∀ position, position < 14 → (historyFrom 0 results).getLsbD position =
      (results.reverse[position]?).elim false Prod.snd := by
  induction results using List.reverseRecOn with
  | nil =>
      intro position _within
      simp [historyFrom]
  | append_singleton results result ih =>
      intro position within
      rw [historyFrom_snoc, List.reverse_append, List.reverse_singleton, List.singleton_append]
      cases position with
      | zero => exact ShiftRegister.getLsbD_push_zero _ _ within
      | succ earlier =>
          rw [ShiftRegister.getLsbD_push_succ _ _ earlier within, ih earlier (by omega)]
          rfl

/-- In every run a prediction is the count of what its class has seen. One
taken result makes it taken, and three in a row that are not undo it. -/
theorem run_follows (calls : List Call) (last : Session Gshare)
    (ran : predictor.machine.run (PredictorModule.start initial) calls = some last)
    (ip : Address) :
    (∀ position, position < 14 → last.predictor.branchHistoryVector.getLsbD position =
        ((resultsOf calls).reverse[position]?).elim false Prod.snd) ∧
      (predictBranch last.predictor ip).1 =
        decide (1 ≤ (countEach (Fwcounter.zero 2) (seen (resultsOf calls) ip)).value) ∧
      (∀ earlier, seen (resultsOf calls) ip = earlier ++ [true] →
        (predictBranch last.predictor ip).1 = true) ∧
      ∀ earlier, seen (resultsOf calls) ip = earlier ++ [false, false, false] →
        (predictBranch last.predictor ip).1 = false := by
  have reached := predictor.run_results (fun _state _ip => rfl) calls _ last ran
  have whole : last.predictor = ⟨historyFrom 0 (resultsOf calls),
      initial.gsHistoryTable.trainEach (classesFrom 0 (resultsOf calls))⟩ :=
    reached.trans (foldl_results (resultsOf calls) initial)
  have predicts : (predictBranch last.predictor ip).1 =
      decide (1 ≤ (countEach (Fwcounter.zero 2) (seen (resultsOf calls) ip)).value) := by
    rw [whole]
    unfold predictBranch
    dsimp only
    rw [CounterTable.trainEach_cells]
    rfl
  refine ⟨?_, predicts, ?_, ?_⟩
  · rw [whole]
    exact getLsbD_historyFrom (resultsOf calls)
  · intro earlier same
    have raised := countEach_taken (Fwcounter.zero 2) earlier 1
    simp only [List.replicate_succ, List.replicate_zero] at raised
    rw [predicts, same]
    apply decide_eq_true
    omega
  · intro earlier same
    have lowered := countEach_notTaken (Fwcounter.zero 2) earlier 3
    simp only [List.replicate_succ, List.replicate_zero] at lowered
    rw [predicts, same]
    apply decide_eq_false
    omega

def alwaysTaken : List (Address × Bool) := List.replicate 15 (0x400, true)

/-- Once the history is full, the class of such a branch has seen a taken result. -/
theorem run_follows_alwaysTaken :
    ∃ last, predictor.machine.run (PredictorModule.start initial)
        (PredictorModule.callsOf alwaysTaken) = some last ∧
      (predictBranch last.predictor 0x400).1 = true := by
  have seenTaken : seen (resultsOf (PredictorModule.callsOf alwaysTaken)) 0x400 = [] ++ [true] := by
    decide +kernel
  obtain ⟨after, ran⟩ := predictor.run_callsOf initial none alwaysTaken
  exact ⟨_, ran, (run_follows (PredictorModule.callsOf alwaysTaken) _ ran 0x400).2.2.1 []
    seenTaken⟩

end Gshare

end ChampSim.Branch

/-
The hashed perceptron: tables of saturating weights that are indexed by folded
histories, and a training threshold that adjusts itself.

What the source leaves undefined is a fault here: an element outside a table,
an `int` that overflows. `at()` throws outside its table, which is a fault of
its own.
-/

import ChampSim.Branch.Module
import ChampSim.HashedPerceptron.FoldedShiftRegister
import ChampSim.Library.CArray
import ChampSim.Library.Outcome
import ChampSim.Msl.Fwcounter
import Mathlib.Algebra.Order.Group.Unbundled.Abs
import Mathlib.Algebra.Order.Group.Abs

set_option autoImplicit false

namespace ChampSim.HashedPerceptron

open Branch (Call)
open Msl
open Outcome

def nTables : Nat := 16

def maxHist : Nat := 232

def minHist : Nat := 3

def tableSize : Nat := 1 <<< 12

def tableIndexBits : WordLen := ⟨Nat.log2 tableSize, by decide, by decide⟩

def threshold : Int := 1

def speed : Int := 18

def historyLengths : List Nat :=
  [0, minHist, 4, 6, 8, 10, 14, 19, 26, 36, 49, 67, 91, 125, 170, maxHist]

/-- The largest `int`. -/
def intMax : Int := 2 ^ 31 - 1

inductive Fault where
  | outOfRange
  | outOfBounds
  | intOverflow
deriving DecidableEq, Repr

/-- The value of a signed operation on `int`, when it has one. -/
def checkedInt (value : Int) : Except Fault Int :=
  if -intMax - 1 ≤ value ∧ value ≤ intMax then .ok value else .error .intOverflow

abbrev Weight := Sfwcounter 8

abbrev Table := CArray tableSize Weight

/-- `at()`. -/
def tableAt (table : Table) (index : BitVec 64) : Except Fault Weight :=
  if index.toNat < tableSize then .ok (table.get index.toNat) else .error .outOfRange

/-- An assignment through `operator[]`. -/
def tableModify (table : Table) (index : BitVec 64) (change : Weight → Weight) :
    Except Fault Table :=
  if index.toNat < tableSize then .ok (table.set index.toNat (change (table.get index.toNat)))
  else .error .outOfBounds

structure PerceptronResult where
  indices : CArray nTables (BitVec 64)
  yout : Int

structure Predictor where
  tables : CArray nTables Table
  ghistWords : CArray nTables (FoldedShiftRegister tableIndexBits)
  theta : Int
  tc : Int
  lastResult : PerceptronResult

namespace Predictor

/-- A predictor as it is constructed, but for its first `theta`, which is 10 in the source. -/
def make (theta : Int) : Predictor where
  tables := CArray.fill nTables (CArray.fill tableSize default)
  ghistWords := ⟨fun table => FoldedShiftRegister.make tableIndexBits (historyLengths.get table)⟩
  theta := theta
  tc := 0
  lastResult := ⟨CArray.fill nTables 0, 0⟩

def getIndex (pc : Address) (hist : FoldedShiftRegister tableIndexBits) : BitVec 64 :=
  hist.value ^^^ BitVec.ofNat 64 (pc.slice 0 tableIndexBits.bits)

def perceptronSum (tables : CArray nTables Table) (indices : CArray nTables (BitVec 64)) :
    Except Fault Int :=
  (List.finRange nTables).foldlM (fun yout table => do
    let weight ← tableAt (tables.cells table) (indices.cells table)
    .ok (yout + weight.value)) 0

def predictBranch (state : Predictor) (pc : Address) :
    Except Fault (Bool × Predictor) := do
  let indices := ⟨fun table => getIndex pc (state.ghistWords.cells table)⟩
  let yout ← perceptronSum state.tables indices
  .ok (decide (threshold ≤ yout), { state with lastResult := ⟨indices, yout⟩ })

def adjustThreshold (state : Predictor) (correct : Bool) :
    Except Fault Predictor :=
  if !correct then do
    let tc ← checkedInt (state.tc + 1)
    if speed ≤ tc then do
      let theta ← checkedInt (state.theta + 1)
      .ok { state with theta := theta, tc := 0 }
    else .ok { state with tc := tc }
  else do
    let tc ← checkedInt (state.tc - 1)
    if tc ≤ -speed then do
      let theta ← checkedInt (state.theta - 1)
      .ok { state with theta := theta, tc := 0 }
    else .ok { state with tc := tc }

def updateWeights (tables : CArray nTables Table) (indices : CArray nTables (BitVec 64))
    (taken : Bool) : Except Fault (CArray nTables Table) :=
  (List.finRange nTables).foldlM (fun tables table => do
    let updated ← tableModify (tables.cells table) (indices.cells table)
      (fun weight => weight.addAssign (if taken then 1 else -1))
    .ok (tables.set table.val updated)) tables

def lastBranchResult (state : Predictor) (taken : Bool) :
    Except Fault Predictor := do
  let pushed := { state with ghistWords := state.ghistWords.map (fun hist => hist.pushBack taken) }
  let predictionCorrect := taken == decide (threshold ≤ state.lastResult.yout)
  let predictionWeak := decide ((state.lastResult.yout.natAbs : Int) < state.theta)
  if !predictionCorrect || predictionWeak then do
    let tables ← updateWeights pushed.tables pushed.lastResult.indices taken
    adjustThreshold { pushed with tables := tables } predictionCorrect
  else .ok pushed

def call (state : Predictor) : Call → Except Fault Predictor
  | .predictBranch ip => (state.predictBranch ip).map Prod.snd
  | .lastBranchResult _ taken => state.lastBranchResult taken

def run (state : Predictor) (calls : List Call) : Except Fault Predictor :=
  calls.foldlM call state

structure ThresholdInRange (state : Predictor) : Prop where
  theta : 0 ≤ state.theta
  tcAbove : -18 < state.tc
  tcBelow : state.tc < 18

/-- The quantities of the predictor are in their ranges. -/
structure InRange (state : Predictor) : Prop extends ThresholdInRange state where
  weights : ∀ table index, -128 ≤ ((state.tables.cells table).cells index).value ∧
    ((state.tables.cells table).cells index).value ≤ 127
  indices : ∀ table, (state.lastResult.indices.cells table).toNat < tableSize
  yout : |state.lastResult.yout| ≤ 128 * nTables

/-! ### Indices and the sum -/

theorem getIndex_lt (pc : Address) (hist : FoldedShiftRegister tableIndexBits) :
    (getIndex pc hist).toNat < tableSize := by
  have size : tableSize = 2 ^ 12 := rfl
  have value : hist.value.toNat < 2 ^ 12 := by
    unfold FoldedShiftRegister.value
    rw [BitVec.toNat_and]
    exact Nat.and_lt_two_pow _ (by decide)
  have seed : pc.slice 0 tableIndexBits.bits % 2 ^ 64 < 2 ^ 12 :=
    (Nat.mod_le _ _).trans_lt (Nat.mod_lt _ (by decide))
  unfold getIndex
  rw [BitVec.toNat_xor, BitVec.toNat_ofNat, size]
  exact Nat.xor_lt_two_pow value seed

theorem tableAt_ok (table : Table) {index : BitVec 64} (inside : index.toNat < tableSize) :
    tableAt table index = .ok (table.get index.toNat) := if_pos inside

theorem tableModify_ok (table : Table) {index : BitVec 64} (change : Weight → Weight)
    (inside : index.toNat < tableSize) :
    tableModify table index change =
      .ok (table.set index.toNat (change (table.get index.toNat))) := if_pos inside

theorem weight_abs_le (weight : Weight) : |weight.value| ≤ 128 := by
  have atLeast := weight.atLeast
  have atMost := weight.atMost
  norm_num at atLeast atMost
  rw [abs_le]
  omega

theorem partialSum_ends (tables : CArray nTables Table) (indices : CArray nTables (BitVec 64))
    (inside : ∀ table, (indices.cells table).toNat < tableSize) (chosen : List (Fin nTables))
    (sum : Int) :
    Ends (fun _ => False)
      (chosen.foldlM (fun yout table => do
        let weight ← tableAt (tables.cells table) (indices.cells table)
        Except.ok (yout + weight.value)) sum)
      (fun yout => |yout| ≤ |sum| + 128 * chosen.length) := by
  induction chosen generalizing sum with
  | nil =>
      change |sum| ≤ |sum| + 128 * ((0 : Nat) : Int)
      omega
  | cons table rest ih =>
      rw [List.foldlM_cons, tableAt_ok _ (inside table)]
      apply (ih (sum + ((tables.cells table).get (indices.cells table).toNat).value)).mono
      intro yout bound
      have triangle := abs_add_le sum ((tables.cells table).get (indices.cells table).toNat).value
      have small := weight_abs_le ((tables.cells table).get (indices.cells table).toNat)
      rw [List.length_cons]
      push_cast
      omega

theorem perceptronSum_ends (tables : CArray nTables Table)
    (indices : CArray nTables (BitVec 64))
    (inside : ∀ table, (indices.cells table).toNat < tableSize) :
    Ends (fun _ => False) (perceptronSum tables indices)
      (fun yout => |yout| ≤ 128 * nTables) := by
  apply (partialSum_ends tables indices inside (List.finRange nTables) 0).mono
  intro yout bound
  rw [List.length_finRange, abs_zero, Int.zero_add] at bound
  exact bound

theorem updateWeights_ends (tables : CArray nTables Table)
    (indices : CArray nTables (BitVec 64)) (taken : Bool)
    (inside : ∀ table, (indices.cells table).toNat < tableSize) :
    Ends (fun _ => False) (updateWeights tables indices taken) (fun _ => True) := by
  apply foldlM_ends _ (fun _ => True)
  · intro current table _member _holds
    rw [tableModify_ok _ _ (inside table)]
    trivial
  · trivial

/-! ### The threshold -/

/-- Where `theta` and `tc` stand together: each training moves it by one. -/
def trainingLevel (state : Predictor) : Int := speed * state.theta + state.tc

/-- An overflow from some level: `theta` is at the largest `int`. -/
def Overflow (level : Int) (fault : Fault) : Prop :=
  fault = .intOverflow ∧ speed * intMax + speed - 1 ≤ level

theorem checkedInt_ok {value : Int} (above : -intMax - 1 ≤ value) (below : value ≤ intMax) :
    checkedInt value = .ok value := if_pos ⟨above, below⟩

theorem adjustThreshold_ends (state : Predictor) (correct : Bool)
    (before : ThresholdInRange state) (positive : correct = true → 0 < state.theta) :
    Ends (Overflow (trainingLevel state)) (adjustThreshold state correct)
      (fun next => ThresholdInRange next ∧ trainingLevel next ≤ trainingLevel state + 1 ∧
        next.tables = state.tables ∧ next.lastResult = state.lastResult) := by
  obtain ⟨theta, tcAbove, tcBelow⟩ := before
  have largest : intMax = 2147483647 := by decide
  have eighteen : speed = 18 := rfl
  unfold adjustThreshold Overflow trainingLevel
  rw [eighteen]
  cases correct with
  | false =>
      have counted := checkedInt_ok (show -intMax - 1 ≤ state.tc + 1 by omega) (by omega)
      rw [if_pos (show (!false) = true from rfl), counted]
      change Ends _ (if 18 ≤ state.tc + 1 then _ else _) _
      by_cases full : 18 ≤ state.tc + 1
      · rw [if_pos full]
        unfold checkedInt
        split
        · refine ⟨⟨?_, ?_, ?_⟩, ?_, rfl, rfl⟩ <;> dsimp only <;> omega
        · exact ⟨rfl, by omega⟩
      · rw [if_neg full]
        refine ⟨⟨theta, ?_, ?_⟩, ?_, rfl, rfl⟩ <;> dsimp only <;> omega
  | true =>
      have above := positive rfl
      have counted := checkedInt_ok (show -intMax - 1 ≤ state.tc - 1 by omega) (by omega)
      rw [if_neg (show ¬(!true) = true by decide), counted]
      change Ends _ (if state.tc - 1 ≤ -18 then _ else _) _
      by_cases empty : state.tc - 1 ≤ -18
      · rw [if_pos empty]
        unfold checkedInt
        split
        · refine ⟨⟨?_, ?_, ?_⟩, ?_, rfl, rfl⟩ <;> dsimp only <;> omega
        · exact ⟨rfl, by omega⟩
      · rw [if_neg empty]
        refine ⟨⟨theta, ?_, ?_⟩, ?_, rfl, rfl⟩ <;> dsimp only <;> omega

/-! ### Runs -/

theorem weights_range (tables : CArray nTables Table) (table : Fin nTables)
    (index : Fin tableSize) : -128 ≤ ((tables.cells table).cells index).value ∧
      ((tables.cells table).cells index).value ≤ 127 := by
  have atLeast := ((tables.cells table).cells index).atLeast
  have atMost := ((tables.cells table).cells index).atMost
  norm_num at atLeast atMost
  exact ⟨atLeast, atMost⟩

theorem make_inRange {theta : Int} (nonnegative : 0 ≤ theta) : InRange (make theta) where
  theta := nonnegative
  tcAbove := show (-18 : Int) < 0 by decide
  tcBelow := show (0 : Int) < 18 by decide
  weights := weights_range _
  indices := fun _table => show (0 : Nat) < tableSize by decide
  yout := show |(0 : Int)| ≤ 128 * nTables by decide

theorem predictBranch_ends (state : Predictor) (pc : Address) (before : InRange state) :
    Ends (fun _ => False) (state.predictBranch pc)
      (fun result => InRange result.2 ∧ trainingLevel result.2 = trainingLevel state) := by
  have inside := fun table => getIndex_lt pc (state.ghistWords.cells table)
  apply Ends.bind (perceptronSum_ends state.tables
    ⟨fun table => getIndex pc (state.ghistWords.cells table)⟩ inside)
  intro yout bound
  exact ⟨⟨⟨before.theta, before.tcAbove, before.tcBelow⟩, before.weights, inside, bound⟩, rfl⟩

theorem lastBranchResult_ends (state : Predictor) (taken : Bool) (before : InRange state) :
    Ends (Overflow (trainingLevel state)) (state.lastBranchResult taken)
      (fun next => InRange next ∧ trainingLevel next ≤ trainingLevel state + 1) := by
  obtain ⟨⟨theta, tcAbove, tcBelow⟩, weights, indices, yout⟩ := before
  unfold lastBranchResult
  dsimp only
  split
  · rename_i trains
    apply (updateWeights_ends state.tables state.lastResult.indices taken indices).never.bind
    intro tables _updated
    let trained : Predictor :=
      { state with
        tables := tables
        ghistWords := state.ghistWords.map (fun hist => hist.pushBack taken) }
    have adjusted := adjustThreshold_ends trained
      (taken == decide (threshold ≤ state.lastResult.yout)) ⟨theta, tcAbove, tcBelow⟩ (by
        -- a correct prediction trains only when it is weak
        intro correct
        rw [correct, Bool.not_true, Bool.false_or] at trains
        have weak := of_decide_eq_true trains
        change 0 < state.theta
        omega)
    apply adjusted.mono
    rintro next ⟨inRange, level, _tables, lastResult⟩
    refine ⟨⟨inRange, weights_range _, ?_, ?_⟩, level⟩
    · rw [lastResult]
      exact indices
    · rw [lastResult]
      exact yout
  · refine ⟨⟨⟨theta, tcAbove, tcBelow⟩, weights, indices, yout⟩, ?_⟩
    change trainingLevel state ≤ trainingLevel state + 1
    omega

theorem call_ends (state : Predictor) (next : Call) (before : InRange state) :
    Ends (Overflow (trainingLevel state)) (state.call next)
      (fun after => InRange after ∧ trainingLevel after ≤ trainingLevel state + 1) := by
  cases next with
  | predictBranch ip =>
      apply (predictBranch_ends state ip before).never.map
      rintro ⟨_taken, after⟩ ⟨inRange, level⟩
      exact ⟨inRange, by dsimp only at level ⊢; omega⟩
  | lastBranchResult ip taken => exact lastBranchResult_ends state taken before

theorem Overflow.later {level higher : Int} {fault : Fault} (overflow : Overflow level fault)
    (above : level ≤ higher) : Overflow higher fault :=
  ⟨overflow.1, overflow.2.trans above⟩

theorem run_level (calls : List Call) (state : Predictor) (before : InRange state) :
    Ends (Overflow (trainingLevel state + calls.length - 1)) (state.run calls) InRange := by
  induction calls generalizing state with
  | nil => exact before
  | cons next rest ih =>
      unfold run at ih ⊢
      rw [List.foldlM_cons, List.length_cons]
      push_cast
      apply Ends.bind ((call_ends state next before).allow
        (fun _fault overflow => overflow.later (by omega)))
      rintro after ⟨inRange, level⟩
      exact (ih after inRange).allow (fun _fault overflow => overflow.later (by omega))

/-- Whatever is called, the quantities stay in their ranges and no access leaves a table. What
can end a run is only `theta++` at the largest `int`, after the calls it takes to get there. -/
theorem run_ends (theta : Int) (nonnegative : 0 ≤ theta) (calls : List Call) :
    Ends (fun fault => fault = .intOverflow ∧ 18 * (intMax + 1 - theta) ≤ calls.length)
      ((make theta).run calls) InRange := by
  apply (run_level calls (make theta) (make_inRange nonnegative)).allow
  rintro fault ⟨overflow, level⟩
  refine ⟨overflow, ?_⟩
  change 18 * intMax + 18 - 1 ≤ 18 * theta + 0 + calls.length - 1 at level
  omega

theorem run_ends_branch :
    Ends (fun fault => fault = .intOverflow ∧ 18 * (intMax + 1 - 10) ≤ (2 : Nat))
      ((make 10).run [.predictBranch 0x400000, .lastBranchResult 0x400000 true]) InRange :=
  run_ends 10 (by decide) [.predictBranch 0x400000, .lastBranchResult 0x400000 true]

end Predictor

end ChampSim.HashedPerceptron

/-
What the hashes of TAGE compute, bit by bit, from the branches of a run.

The global history register holds the outcomes of the newest branches and the
path register the lowest bits of their addresses. A fold puts the outcomes on a
few positions, and each bit of a fold is the parity of the outcomes on it.
-/

import ChampSim.Library.Parity
import ChampSim.Tage.Runs

set_option autoImplicit false

namespace ChampSim.Tage

open BitFields Branch ShiftRegister Parity

/-! ### Runs of calls in any order -/

/-- A call, whether or not it follows the prediction of its branch. -/
def call (state : Tage × Rand) : Call → Tage × Rand
  | .predictBranch ip => (predictor.predictBranch state ip).2
  | .lastBranchResult ip taken => predictor.lastBranchResult state ip taken

def noteResult (branches : List (Address × Bool)) : Call → List (Address × Bool)
  | .predictBranch _ => branches
  | .lastBranchResult ip taken => (ip, taken) :: branches

def ran (memory : Tage) (stream : Rand) (calls : List Call) : Tage :=
  (calls.foldl call (fresh memory, stream)).1

def resolved (calls : List Call) : List (Address × Bool) := calls.foldl noteResult []

def outcomeAt (branches : List (Address × Bool)) (position : Nat) : Bool :=
  branches[position]?.any Prod.snd

def pathAt (branches : List (Address × Bool)) (position : Nat) : Bool :=
  branches[position]?.any (fun branch => branch.1.getLsbD 0)

structure Remembers (tage : Tage) (branches : List (Address × Bool)) : Prop where
  ghist : ∀ position, position < ghistBits + 1 →
    tage.ghist.getLsbD position = outcomeAt branches position
  phist : ∀ position, position < phistBits →
    tage.phist.getLsbD position = pathAt branches position

theorem Remembers.push {tage next : Tage} {branches : List (Address × Bool)}
    (remembers : Remembers tage branches) (ip : Address) (taken : Bool)
    (ghist : next.ghist = push tage.ghist taken) (phist : next.phist = pushPath tage.phist ip) :
    Remembers next ((ip, taken) :: branches) := by
  constructor
  · intro position within
    rw [ghist]
    cases position with
    | zero =>
        rw [getLsbD_push_zero _ _ within]
        rfl
    | succ older =>
        rw [getLsbD_push_succ _ _ _ within]
        exact remembers.ghist older (by omega)
  · intro position within
    rw [phist]
    cases position with
    | zero =>
        rw [getLsbD_pushPath_zero]
        rfl
    | succ older =>
        rw [getLsbD_pushPath_succ, decide_eq_true within, Bool.true_and]
        exact remembers.phist older (by omega)

theorem Remembers.call {state : Tage × Rand} {branches : List (Address × Bool)}
    (remembers : Remembers state.1 branches) (made : Call) :
    Remembers (call state made).1 (noteResult branches made) := by
  cases made with
  | predictBranch ip =>
      obtain ⟨info, same⟩ := predictBranch_frame state.1 ip
      change Remembers (state.1.predictBranch ip).2 branches
      rw [same]
      exact ⟨remembers.ghist, remembers.phist⟩
  | lastBranchResult ip taken =>
      exact remembers.push ip taken (lastBranchResult_ghist state.1 ip taken state.2)
        (lastBranchResult_phist state.1 ip taken state.2)

theorem ran_remembers (memory : Tage) (stream : Rand) (calls : List Call) :
    Remembers (ran memory stream calls) (resolved calls) := by
  have all : ∀ (state : Tage × Rand) (branches : List (Address × Bool)),
      Remembers state.1 branches →
        Remembers (calls.foldl call state).1 (calls.foldl noteResult branches) := by
    induction calls with
    | nil =>
        intro state branches remembers
        exact remembers
    | cons made rest ih =>
        intro state branches remembers
        exact ih _ _ (remembers.call made)
  apply all
  constructor
  · intro position _within
    change (0 : BitVec (ghistBits + 1)).getLsbD position = false
    exact BitVec.getLsbD_zero
  · intro position _within
    change (0 : BitVec 32).getLsbD position = false
    exact BitVec.getLsbD_zero

/-! ### The bits of the hashes -/

private theorem onePos_getLsbD (place position : Nat) (small : place < 32) :
    ((1#64 <<< place).setWidth 32).getLsbD position = decide (place = position) := by
  rw [BitVec.getLsbD_setWidth, BitVec.getLsbD_shiftLeft, BitVec.getLsbD_one]
  by_cases same : place = position
  · subst same
    have word : place < 64 := by omega
    simp [small, word]
  · rw [decide_eq_false same]
    by_cases below : position < place
    · simp [below]
    · have apart : position - place ≠ 0 := by omega
      simp [apart]

/-- A bit of a fold is the parity of the outcomes that are folded onto it. -/
theorem getGhistHash_getLsbD (tage : Tage) (inSize outSize position : Nat)
    (positive : 0 < outSize) (small : outSize ≤ 32) :
    (tage.getGhistHash inSize outSize).getLsbD position =
      parity inSize (fun i => tage.ghist.getLsbD i && decide (i % outSize = position)) := by
  induction inSize with
  | zero =>
      rw [parity_zero]
      exact BitVec.getLsbD_zero
  | succ inSize ih =>
      have inside : inSize % outSize < 32 := by
        have below := Nat.mod_lt inSize positive
        omega
      have step : tage.getGhistHash (inSize + 1) outSize =
          if tage.ghist.getLsbD inSize then
            tage.getGhistHash inSize outSize ^^^ (1#64 <<< (inSize % outSize)).setWidth 32
          else tage.getGhistHash inSize outSize := by
        unfold getGhistHash
        rw [List.range_succ, List.foldl_append]
        rfl
      rw [step, parity_succ, ← ih]
      cases tage.ghist.getLsbD inSize with
      | false => rw [Bool.false_and, Bool.xor_false, if_neg Bool.false_ne_true]
      | true => rw [Bool.true_and, if_pos rfl, BitVec.getLsbD_xor, onePos_getLsbD _ _ inside]

/-- What the tagged component `component` reads of a history: outcomes, and the
path of the newest ten branches. -/
structure HashedBy (tage : Tage) (branches : List (Address × Bool)) (ip : Address)
    (component : Int) : Prop where
  index : ∀ position, position < 10 →
    (tage.indexHash ip component).getLsbD position =
      (ip.getLsbD position ^^ ip.getLsbD (position + 10) ^^ pathAt branches position ^^
        parity (ofComponent histLens component)
          (fun i => outcomeAt branches i && decide (i % 10 = position)))
  indexRange : (tage.indexHash ip component).toNat < 2 ^ 10
  tag : ∀ position, position < ofComponent tagWidths component →
    (tage.tagHash ip component).getLsbD position =
      (ip.getLsbD position ^^
        parity (ofComponent histLens component) (fun i =>
          outcomeAt branches i && decide (i % ofComponent tagWidths component = position)) ^^
        (decide (1 ≤ position) && parity (ofComponent histLens component) (fun i =>
          outcomeAt branches i &&
            decide (i % (ofComponent tagWidths component - 1) = position - 1))))
  tagRange : (tage.tagHash ip component).toNat < 2 ^ ofComponent tagWidths component

section Bits

variable {tage : Tage} {branches : List (Address × Bool)}

theorem Remembers.getGhistHash_getLsbD (remembers : Remembers tage branches) (component : Int)
    (outSize position : Nat) (positive : 0 < outSize) (small : outSize ≤ 32) :
    (tage.getGhistHash (ofComponent histLens component) outSize).getLsbD position =
      parity (ofComponent histLens component)
        (fun i => outcomeAt branches i && decide (i % outSize = position)) := by
  rw [tage.getGhistHash_getLsbD _ outSize position positive small]
  apply parity_congr
  intro i within
  have bounded := histLens_le component
  rw [remembers.ghist i (by omega)]

theorem Remembers.indexHash (remembers : Remembers tage branches) (ip : Address)
    (component : Int) (tagged : component ∈ components) (position : Nat) (within : position < 10) :
    (tage.indexHash ip component).getLsbD position =
      (ip.getLsbD position ^^ ip.getLsbD (position + 10) ^^ pathAt branches position ^^
        parity (ofComponent histLens component)
          (fun i => outcomeAt branches i && decide (i % 10 = position))) := by
  have folded := remembers.getGhistHash_getLsbD component 10 position (by decide) (by decide)
  have path := remembers.phist position (by unfold phistBits; omega)
  have word : position < 32 := by omega
  have shifted : 10 + position < 32 := by omega
  unfold Tage.indexHash lowWord
  rw [tageIndexBits_eq component tagged, BitVec.getLsbD_and, onesMask_getLsbD (by decide),
    decide_eq_true within, Bool.and_true, BitVec.getLsbD_xor, BitVec.getLsbD_xor,
    BitVec.getLsbD_xor, folded, path, BitVec.getLsbD_ushiftRight, BitVec.getLsbD_setWidth,
    BitVec.getLsbD_setWidth, decide_eq_true word, decide_eq_true shifted, Bool.true_and,
    Bool.true_and, Nat.add_comm 10 position]
  exact Bool.xor_right_comm _ _ _

theorem Remembers.tagHash (remembers : Remembers tage branches) (ip : Address)
    (component : Int) (tagged : component ∈ components) (position : Nat)
    (within : position < ofComponent tagWidths component) :
    (tage.tagHash ip component).getLsbD position =
      (ip.getLsbD position ^^
        parity (ofComponent histLens component) (fun i =>
          outcomeAt branches i && decide (i % ofComponent tagWidths component = position)) ^^
        (decide (1 ≤ position) && parity (ofComponent histLens component) (fun i =>
          outcomeAt branches i &&
            decide (i % (ofComponent tagWidths component - 1) = position - 1)))) := by
  obtain ⟨low, high⟩ := tagWidths_range component tagged
  have whole := remembers.getGhistHash_getLsbD component (ofComponent tagWidths component)
    position (by omega) (by omega)
  have half := remembers.getGhistHash_getLsbD component (ofComponent tagWidths component - 1)
    (position - 1) (by omega) (by omega)
  have word : position < 32 := by omega
  unfold Tage.tagHash lowWord
  rw [BitVec.getLsbD_xor, BitVec.getLsbD_xor, BitVec.getLsbD_and,
    onesMask_getLsbD (by omega), decide_eq_true within, Bool.and_true, whole,
    BitVec.getLsbD_shiftLeft, half, BitVec.getLsbD_setWidth, decide_eq_true word, Bool.true_and,
    Bool.true_and, Bool.xor_assoc]
  by_cases first : position < 1
  · rw [decide_eq_true first, decide_eq_false (by omega)]
    rfl
  · rw [decide_eq_false first, decide_eq_true (show 1 ≤ position by omega)]
    rfl

theorem Remembers.hashedBy (remembers : Remembers tage branches) (ip : Address)
    (component : Int) (tagged : component ∈ components) : HashedBy tage branches ip component :=
  ⟨remembers.indexHash ip component tagged, tage.indexHash_lt ip component tagged,
    remembers.tagHash ip component tagged, tage.tagHash_lt ip component tagged⟩

end Bits

/-! ### Recent history -/

structure AgreeFor (component : Int) (left right : List (Address × Bool)) : Prop where
  outcomes : ∀ position, position < ofComponent histLens component →
    outcomeAt left position = outcomeAt right position
  path : ∀ position, position < 10 → pathAt left position = pathAt right position

structure SameHashes (component : Int) (left right : Tage) : Prop where
  index : ∀ ip, left.indexHash ip component = right.indexHash ip component
  tag : ∀ ip, left.tagHash ip component = right.tagHash ip component

theorem sameHashes_of_agreeFor {component : Int} {left right : Tage}
    {first second : List (Address × Bool)} (agree : AgreeFor component first second)
    (leftHashes : ∀ ip, HashedBy left first ip component)
    (rightHashes : ∀ ip, HashedBy right second ip component) :
    SameHashes component left right := by
  have folds : ∀ modulus place,
      parity (ofComponent histLens component)
          (fun i => outcomeAt first i && decide (i % modulus = place)) =
        parity (ofComponent histLens component)
          (fun i => outcomeAt second i && decide (i % modulus = place)) := by
    intro modulus place
    apply parity_congr
    intro i within
    rw [agree.outcomes i within]
  have beyond : ∀ {word : BitVec 32} {bits position : Nat}, word.toNat < 2 ^ bits →
      ¬position < bits → word.getLsbD position = false := by
    intro word bits position small outside
    rw [← BitVec.testBit_toNat]
    exact Nat.testBit_lt_two_pow
      (Nat.lt_of_lt_of_le small (Nat.pow_le_pow_right (by decide) (Nat.le_of_not_lt outside)))
  constructor
  · intro ip
    apply BitVec.eq_of_getLsbD_eq
    intro position _word
    by_cases within : position < 10
    · rw [(leftHashes ip).index position within, (rightHashes ip).index position within,
        folds, agree.path position within]
    · rw [beyond (leftHashes ip).indexRange within, beyond (rightHashes ip).indexRange within]
  · intro ip
    apply BitVec.eq_of_getLsbD_eq
    intro position _word
    by_cases within : position < ofComponent tagWidths component
    · rw [(leftHashes ip).tag position within, (rightHashes ip).tag position within, folds, folds]
    · rw [beyond (leftHashes ip).tagRange within, beyond (rightHashes ip).tagRange within]

/-- Every run hashes its recent branches, bit by bit, and two runs with the same
recent branches compute the same hashes. -/
theorem ran_hashes (memory : Tage) (stream : Rand) (calls : List Call) (component : Int)
    (tagged : component ∈ components) :
    (∀ ip, HashedBy (ran memory stream calls) (resolved calls) ip component) ∧
      ∀ (otherMemory : Tage) (otherStream : Rand) (otherCalls : List Call),
        AgreeFor component (resolved calls) (resolved otherCalls) →
          SameHashes component (ran memory stream calls)
            (ran otherMemory otherStream otherCalls) := by
  have hashed : ∀ (memory : Tage) (stream : Rand) (calls : List Call) (ip : Address),
      HashedBy (ran memory stream calls) (resolved calls) ip component :=
    fun memory stream calls ip => (ran_remembers memory stream calls).hashedBy ip component tagged
  refine ⟨hashed memory stream calls, ?_⟩
  intro otherMemory otherStream otherCalls agree
  exact sameHashes_of_agreeFor agree (hashed memory stream calls)
    (hashed otherMemory otherStream otherCalls)

theorem ran_hashes_one_branch :
    (∀ ip, HashedBy (ran default (fun _ => 0) (PredictorModule.callsOf [(64, true)]))
      (resolved (PredictorModule.callsOf [(64, true)])) ip 12) ∧
      ∀ (otherMemory : Tage) (otherStream : Rand) (otherCalls : List Call),
        AgreeFor 12 (resolved (PredictorModule.callsOf [(64, true)])) (resolved otherCalls) →
          SameHashes 12 (ran default (fun _ => 0) (PredictorModule.callsOf [(64, true)]))
            (ran otherMemory otherStream otherCalls) :=
  ran_hashes default (fun _ => 0) (PredictorModule.callsOf [(64, true)]) 12 (by decide)

end ChampSim.Tage

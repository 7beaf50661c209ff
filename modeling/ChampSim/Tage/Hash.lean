/-
The hashes of branch/Tage/tage.cc that select and tag an entry: the folded
global history, `tagHash` and `indexHash`. Both depend on the predictor through
its history registers only, and both stay inside the table they address.
-/

import ChampSim.Library.BitFields
import ChampSim.Library.ShiftRegister
import ChampSim.Tage.Tables

set_option autoImplicit false

namespace ChampSim.Tage

open BitFields Branch ShiftRegister

/-- `uint32_t ip_ = ip.to<unsigned long>()`. -/
def lowWord (ip : Address) : BitVec 32 := ip.setWidth 32

/-- `get_ghist_hash`: the 64-bit `1ULL << pos` is truncated by the assignment. -/
def getGhistHash (tage : Tage) (inSize outSize : Nat) : BitVec 32 :=
  (List.range inSize).foldl
    (fun hash i =>
      if tage.ghist.getLsbD i then hash ^^^ (1#64 <<< (i % outSize)).setWidth 32 else hash) 0

def tagHash (tage : Tage) (ip : Address) (component : Int) : BitVec 32 :=
  let width := ofComponent tagWidths component
  let length := ofComponent histLens component
  let globalHistoryHash := tage.getGhistHash length width
  let globalHistoryHash := globalHistoryHash ^^^ (tage.getGhistHash length (width - 1) <<< 1)
  (lowWord ip &&& ((1#32 <<< width) - 1)) ^^^ globalHistoryHash

def indexHash (tage : Tage) (ip : Address) (component : Int) : BitVec 32 :=
  let bits := ofComponent tageIndexBits component
  let globalHistoryHash := tage.getGhistHash (ofComponent histLens component) bits
  (lowWord ip ^^^ (lowWord ip >>> bits) ^^^ globalHistoryHash ^^^ tage.phist) &&&
    ((1#32 <<< bits) - 1)

/-- `int32_t comp_index = indexHash(ip, i)`. -/
def compIndex (tage : Tage) (ip : Address) (component : Int) : Int :=
  (tage.indexHash ip component).toInt

/-! ### The history registers are all that the hashes read -/

theorem getGhistHash_congr (left right : Tage) (inSize outSize : Nat)
    (same : ∀ i, i < inSize → left.ghist.getLsbD i = right.ghist.getLsbD i) :
    left.getGhistHash inSize outSize = right.getGhistHash inSize outSize := by
  unfold getGhistHash
  apply List.foldl_ext
  intro hash i member
  rw [same i (List.mem_range.mp member)]

/-- Two predictors with the same reachable history bits and the same path. -/
structure SameHistory (left right : Tage) : Prop where
  ghist : ∀ i, i < ghistBits → left.ghist.getLsbD i = right.ghist.getLsbD i
  phist : left.phist = right.phist

theorem histLens_le (component : Int) : ofComponent histLens component ≤ ghistBits := by
  have all : ∀ length ∈ histLens, length ≤ ghistBits := by decide
  unfold ofComponent
  rw [List.getD_eq_getElem?_getD]
  cases found : histLens[(component - 1).toNat]? with
  | none => exact Nat.zero_le _
  | some length => exact all length (List.mem_of_getElem? found)

theorem SameHistory.getGhistHash {left right : Tage} (same : SameHistory left right)
    (component : Int) (outSize : Nat) :
    left.getGhistHash (ofComponent histLens component) outSize =
      right.getGhistHash (ofComponent histLens component) outSize := by
  apply getGhistHash_congr
  intro i inside
  exact same.ghist i (Nat.lt_of_lt_of_le inside (histLens_le component))

theorem SameHistory.tagHash {left right : Tage} (same : SameHistory left right)
    (ip : Address) (component : Int) : left.tagHash ip component = right.tagHash ip component := by
  unfold Tage.tagHash
  simp only [same.getGhistHash]

theorem SameHistory.indexHash {left right : Tage} (same : SameHistory left right)
    (ip : Address) (component : Int) :
    left.indexHash ip component = right.indexHash ip component := by
  unfold Tage.indexHash
  simp only [same.getGhistHash, same.phist]

theorem SameHistory.compIndex {left right : Tage} (same : SameHistory left right)
    (ip : Address) (component : Int) :
    left.compIndex ip component = right.compIndex ip component := by
  unfold Tage.compIndex
  rw [same.indexHash]

/-! ### Ranges -/

private theorem onePos_toNat (position : Nat) (small : position < 32) :
    ((1#64 <<< position).setWidth 32).toNat = 2 ^ position := by
  have below : 2 ^ position < 2 ^ 32 := Nat.pow_lt_pow_right (by decide) small
  rw [BitVec.toNat_setWidth, BitVec.toNat_shiftLeft, Nat.shiftLeft_eq]
  rw [BitVec.toNat_ofNat]
  omega

/-- A history folded to `outSize` positions fits in `outSize` bits. -/
theorem getGhistHash_lt (tage : Tage) (inSize outSize : Nat) (positive : 0 < outSize)
    (small : outSize ≤ 32) : (tage.getGhistHash inSize outSize).toNat < 2 ^ outSize := by
  unfold getGhistHash
  refine List.foldlRecOn (List.range inSize) _
    (motive := fun (hash : BitVec 32) => hash.toNat < 2 ^ outSize) ?_ ?_
  · exact Nat.two_pow_pos outSize
  · intro hash below i _member
    split
    · have inside : i % outSize < outSize := Nat.mod_lt i positive
      rw [BitVec.toNat_xor, onePos_toNat _ (by omega)]
      exact Nat.xor_lt_two_pow below (Nat.pow_lt_pow_right (by decide) inside)
    · exact below

theorem and_onesMask_lt (word : BitVec 32) (bits : Nat) (small : bits < 32) :
    (word &&& ((1#32 <<< bits) - 1)).toNat < 2 ^ bits := by
  rw [BitVec.toNat_and, onesMask_toNat small]
  have capped : word.toNat &&& (2 ^ bits - 1) ≤ 2 ^ bits - 1 := Nat.and_le_right
  have positive : 0 < 2 ^ bits := Nat.two_pow_pos bits
  omega

theorem tagWidths_range (component : Int) (tagged : component ∈ components) :
    7 ≤ ofComponent tagWidths component ∧ ofComponent tagWidths component ≤ 15 := by
  have all : ∀ component ∈ components,
      7 ≤ ofComponent tagWidths component ∧ ofComponent tagWidths component ≤ 15 := by decide
  exact all component tagged

theorem tageIndexBits_eq (component : Int) (tagged : component ∈ components) :
    ofComponent tageIndexBits component = 10 := by
  have all : ∀ component ∈ components, ofComponent tageIndexBits component = 10 := by decide
  exact all component tagged

/-- The second fold is shifted after it was folded to one bit less, so that the
whole tag keeps to its width. -/
theorem tagHash_lt (tage : Tage) (ip : Address) (component : Int)
    (tagged : component ∈ components) :
    (tage.tagHash ip component).toNat < 2 ^ ofComponent tagWidths component := by
  obtain ⟨low, high⟩ := tagWidths_range component tagged
  have half := tage.getGhistHash_lt (ofComponent histLens component)
    (ofComponent tagWidths component - 1) (by omega) (by omega)
  have whole := tage.getGhistHash_lt (ofComponent histLens component)
    (ofComponent tagWidths component) (by omega) (by omega)
  have masked := and_onesMask_lt (lowWord ip) (ofComponent tagWidths component) (by omega)
  have doubled : 2 ^ ofComponent tagWidths component =
      2 ^ (ofComponent tagWidths component - 1) * 2 := by
    rw [← Nat.pow_succ]
    congr 1
    omega
  have shifted : (tage.getGhistHash (ofComponent histLens component)
      (ofComponent tagWidths component - 1) <<< 1).toNat <
        2 ^ ofComponent tagWidths component := by
    rw [BitVec.toNat_shiftLeft, Nat.shiftLeft_eq, Nat.pow_one]
    exact Nat.lt_of_le_of_lt (Nat.mod_le _ _) (by omega)
  unfold tagHash
  rw [BitVec.toNat_xor, BitVec.toNat_xor]
  exact Nat.xor_lt_two_pow masked (Nat.xor_lt_two_pow whole shifted)

theorem indexHash_lt (tage : Tage) (ip : Address) (component : Int)
    (tagged : component ∈ components) : (tage.indexHash ip component).toNat < tageEntries := by
  unfold indexHash
  rw [tageIndexBits_eq component tagged]
  exact and_onesMask_lt _ 10 (by decide)

theorem compIndex_eq_toNat (tage : Tage) (ip : Address) (component : Int)
    (tagged : component ∈ components) :
    tage.compIndex ip component = ((tage.indexHash ip component).toNat : Int) := by
  have below := tage.indexHash_lt ip component tagged
  unfold tageEntries at below
  exact BitVec.toInt_eq_toNat_of_lt (by omega)

theorem slot_compIndex (tage : Tage) (ip : Address) (component : Int)
    (tagged : component ∈ components) : Slot component (tage.compIndex ip component) := by
  have below := tage.indexHash_lt ip component tagged
  rw [compIndex_eq_toNat tage ip component tagged]
  unfold tageEntries at below
  exact ⟨(mem_components component).mp tagged, by omega, by omega⟩

end ChampSim.Tage

/-
Runs of TAGE, and the ranges that hold in every state of a run.

`Sound` is the inductive invariant: what the stored tags, the branch counter,
the path history and the saved prediction satisfy. Everything else that must
stay in range is a hash, which is masked, or a counter, which carries its
range.
-/

import ChampSim.Tage.Effect

set_option autoImplicit false

namespace ChampSim.Tage

open BitFields Msl Branch ShiftRegister Transition

/-- TAGE beside the values that `rand()` has not returned yet. -/
def predictor : PredictorModule (Tage × Rand) where
  predictBranch state ip :=
    ((state.1.predictBranch ip).1, ((state.1.predictBranch ip).2, state.2))
  lastBranchResult state ip taken := state.1.lastBranchResult ip taken state.2

/-- `session` is reached by some run from initialisation. -/
def Reaches (memory : Tage) (stream : Rand) (calls : List Call)
    (session : Session (Tage × Rand)) : Prop :=
  predictor.machine.run (PredictorModule.start (fresh memory, stream)) calls = some session

/-! ### Registers after an update -/

/-- Counting a branch touches the counter and, when it ages them, the tables. -/
private theorem countBranch_frame (tage : Tage) :
    ∃ numBranches tageTable,
      tage.countBranch = { tage with numBranches := numBranches, tageTable := tageTable } := by
  unfold countBranch
  dsimp only
  split
  · exact ⟨_, _, rfl⟩
  · split
    · exact ⟨_, _, rfl⟩
    · exact ⟨_, _, rfl⟩

private theorem updated_sameFrame (tage : Tage) (ip : Address) (taken : Bool) (stream : Rand) :
    SameFrame ((tage.train ip taken).allocate ip taken stream).1 tage :=
  (allocate_sameFrame (tage.train ip taken) ip taken stream).trans (train_sameFrame tage ip taken)

theorem lastBranchResult_branchInfo (tage : Tage) (ip : Address) (taken : Bool) (stream : Rand) :
    (tage.lastBranchResult ip taken stream).1.branchInfo = tage.branchInfo := by
  rw [lastBranchResult_eq, ← (updated_sameFrame tage ip taken stream).branchInfo]
  change ((tage.train ip taken).allocate ip taken stream).1.countBranch.branchInfo = _
  obtain ⟨_numBranches, _tageTable, counted⟩ := countBranch_frame
    ((tage.train ip taken).allocate ip taken stream).1
  rw [counted]

theorem lastBranchResult_ghist (tage : Tage) (ip : Address) (taken : Bool) (stream : Rand) :
    (tage.lastBranchResult ip taken stream).1.ghist = push tage.ghist taken := by
  rw [lastBranchResult_eq, ← (updated_sameFrame tage ip taken stream).ghist]
  change push ((tage.train ip taken).allocate ip taken stream).1.countBranch.ghist taken = _
  obtain ⟨_numBranches, _tageTable, counted⟩ := countBranch_frame
    ((tage.train ip taken).allocate ip taken stream).1
  rw [counted]

def pushPath (phist : BitVec 32) (ip : Address) : BitVec 32 :=
  ((phist <<< 1) ||| (lowWord ip &&& 1)) &&& ((1#32 <<< phistBits) - 1)

theorem getLsbD_pushPath_zero (phist : BitVec 32) (ip : Address) :
    (pushPath phist ip).getLsbD 0 = ip.getLsbD 0 := by
  unfold pushPath lowWord phistBits
  simp

private theorem low_getLsbD_succ (ip : Address) (position : Nat) :
    (lowWord ip &&& 1).getLsbD (position + 1) = false := by
  rw [BitVec.getLsbD_and]
  simp

theorem getLsbD_pushPath_succ (phist : BitVec 32) (ip : Address) (position : Nat) :
    (pushPath phist ip).getLsbD (position + 1) =
      (decide (position + 1 < phistBits) && phist.getLsbD position) := by
  unfold pushPath
  rw [BitVec.getLsbD_and, BitVec.getLsbD_or, low_getLsbD_succ,
    onesMask_getLsbD (by decide), Bool.or_false, BitVec.getLsbD_shiftLeft]
  by_cases inside : position + 1 < phistBits
  · have word : position + 1 < 32 := Nat.lt_trans inside (by decide)
    simp [inside, word]
  · simp [inside]

theorem lastBranchResult_phist (tage : Tage) (ip : Address) (taken : Bool) (stream : Rand) :
    (tage.lastBranchResult ip taken stream).1.phist = pushPath tage.phist ip := by
  rw [lastBranchResult_eq, ← (updated_sameFrame tage ip taken stream).phist]
  change pushPath ((tage.train ip taken).allocate ip taken stream).1.countBranch.phist ip = _
  obtain ⟨_numBranches, _tageTable, counted⟩ := countBranch_frame
    ((tage.train ip taken).allocate ip taken stream).1
  rw [counted]

theorem lastBranchResult_numBranches (tage : Tage) (ip : Address) (taken : Bool) (stream : Rand) :
    (tage.lastBranchResult ip taken stream).1.numBranches =
      if tage.numBranches + 1 = resetUsefulInterval then 0 else tage.numBranches + 1 := by
  rw [lastBranchResult_eq, ← (updated_sameFrame tage ip taken stream).numBranches]
  change ((tage.train ip taken).allocate ip taken stream).1.countBranch.numBranches = _
  unfold countBranch
  dsimp only
  split
  · rename_i half
    rw [if_neg (by rw [half]; decide)]
  · split <;> rfl

private theorem allocate_bimodalTable (tage : Tage) (ip : Address) (taken : Bool) (stream : Rand) :
    (tage.allocate ip taken stream).1.bimodalTable = tage.bimodalTable := by
  have folded : ∀ (candidates : List Int) (tage : Tage),
      (candidates.foldl (fun tage i => tage.modifyEntry i (tage.indexHash ip i).toNat
        (fun entry => { entry with u := entry.u.subAssign 1 })) tage).bimodalTable =
          tage.bimodalTable := by
    intro candidates
    induction candidates with
    | nil =>
        intro tage
        rfl
    | cons first rest ih =>
        intro tage
        rw [List.foldl_cons, ih]
        rfl
  unfold allocate
  dsimp only
  split
  · split
    · rfl
    · exact folded _ tage
  · rfl

private theorem train_bimodalTable (tage : Tage) (ip : Address) (taken : Bool) :
    (tage.train ip taken).bimodalTable =
      ((tage.updateUseAltOnNa taken).updateCtr ip taken).bimodalTable := by
  have useful : ∀ tage : Tage, (tage.updateUseful taken).bimodalTable = tage.bimodalTable := by
    intro tage
    unfold updateUseful
    dsimp only
    split <;> rfl
  have altpred : ∀ tage : Tage, (tage.updateAltpred taken).bimodalTable = tage.bimodalTable := by
    intro tage
    unfold updateAltpred
    dsimp only
    split <;> rfl
  unfold train
  rw [useful, altpred]

/-- The bimodal table learns only when no component matched, and only at the
index of the branch. -/
theorem bimodal_lastBranchResult (tage : Tage) (ip : Address) (taken : Bool) (stream : Rand)
    (ready : Ready tage ip) (index : Int) (within : CArray.InBounds bimodalEntries index) :
    (tage.lastBranchResult ip taken stream).1.bimodalTable.get index =
      if tage.providerComp ip = -1 ∧ index = (ip.toNat % bimodalEntries : Nat) then
        (tage.bimodalTable.get index).addAssign (outcomeStep taken)
      else tage.bimodalTable.get index := by
  have counted : ∀ tage : Tage, tage.countBranch.bimodalTable = tage.bimodalTable := by
    intro tage
    obtain ⟨_numBranches, _tageTable, same⟩ := countBranch_frame tage
    rw [same]
  have first : (tage.updateUseAltOnNa taken).bimodalTable = tage.bimodalTable := by
    unfold updateUseAltOnNa
    dsimp only
    split <;> rfl
  rw [lastBranchResult_eq]
  change CArray.get (((tage.train ip taken).allocate ip taken stream).1.countBranch.bimodalTable)
    index = _
  rw [counted, allocate_bimodalTable, train_bimodalTable]
  unfold updateCtr
  dsimp only
  rw [(updateUseAltOnNa_sameFrame tage taken).branchInfo, ready.provider]
  by_cases absent : tage.providerComp ip = -1
  · rw [if_neg (fun present => present absent)]
    dsimp only
    rw [first]
    by_cases here : index = (ip.toNat % bimodalEntries : Nat)
    · rw [if_pos ⟨absent, here⟩, ← here, CArray.get_set_same _ _ _ within]
    · rw [if_neg (fun both => here both.2), CArray.get_set_other _ _ _ _ here]
  · rw [if_pos absent, if_neg (fun both => absent both.1)]
    change CArray.get (tage.updateUseAltOnNa taken).bimodalTable index = _
    rw [first]

/-! ### The invariant of a run -/

structure Sound (tage : Tage) : Prop where
  tags : ∀ component index, Slot component index →
    (tage.entry component index).tag.toNat < 2 ^ ofComponent tagWidths component
  phist : tage.phist.toNat < 2 ^ phistBits
  numBranches : 0 ≤ tage.numBranches ∧ tage.numBranches < resetUsefulInterval
  provider : tage.branchInfo.providerComp = -1 ∨
    Slot tage.branchInfo.providerComp tage.branchInfo.providerIndex
  altpred : tage.branchInfo.altpredComp = -1 ∨
    (tage.branchInfo.altpredComp < tage.branchInfo.providerComp ∧
      Slot tage.branchInfo.altpredComp tage.branchInfo.altpredIndex)

theorem fresh_sound (memory : Tage) : Sound (fresh memory) := by
  constructor
  · intro component index slot
    rw [entry_fresh memory component index slot]
    exact Nat.two_pow_pos _
  · change (0 : BitVec 32).toNat < 2 ^ phistBits
    decide
  · change (0 : Int) ≤ 0 ∧ (0 : Int) < resetUsefulInterval
    decide
  · exact Or.inl rfl
  · exact Or.inl rfl

theorem Sound.predictBranch {tage : Tage} (sound : Sound tage) (ip : Address) :
    Sound (tage.predictBranch ip).2 := by
  have ready := ready_predictBranch tage ip
  obtain ⟨info, same⟩ := predictBranch_frame tage ip
  rw [same] at ready ⊢
  refine ⟨sound.tags, sound.phist, sound.numBranches, ?_, ?_⟩
  · by_cases absent : tage.providerComp ip = -1
    · exact Or.inl (ready.provider.trans absent)
    · refine Or.inr ?_
      rw [ready.provider, ready.providerIndex absent]
      exact slot_compIndex tage ip _ (providerComp_mem tage ip absent)
  · by_cases absent : tage.altpredComp ip = -1
    · exact Or.inl (ready.altpred.trans absent)
    · refine Or.inr ?_
      obtain ⟨tagged, below⟩ := altpredComp_mem tage ip absent
      rw [ready.altpred, ready.altpredIndex absent, ready.provider]
      exact ⟨below, slot_compIndex tage ip _ tagged⟩

theorem updatedSlot_tag (tage : Tage) (ip : Address) (taken : Bool) (random : Nat)
    (component : Int) :
    (tage.updatedSlot ip taken random component).tag =
      if tage.allocatedComponent ip taken random = some component then tage.tagHash ip component
      else (tage.slotEntry ip component).tag := by
  unfold updatedSlot
  dsimp only
  split
  · rfl
  · split <;> rfl

theorem pushPath_lt (phist : BitVec 32) (ip : Address) :
    (pushPath phist ip).toNat < 2 ^ phistBits :=
  and_onesMask_lt _ phistBits (by decide)

theorem Sound.lastBranchResult {tage : Tage} (sound : Sound tage) (ip : Address) (taken : Bool)
    (stream : Rand) (ready : Ready tage ip) :
    Sound (tage.lastBranchResult ip taken stream).1 := by
  have infoSame := lastBranchResult_branchInfo tage ip taken stream
  constructor
  · intro component index slot
    have tagged := (mem_components component).mpr slot.1
    rw [entry_lastBranchResult tage ip taken stream ready component index slot, ageEntry_tag]
    split
    · rw [updatedSlot_tag]
      split
      · exact tagHash_lt tage ip component tagged
      · exact sound.tags _ _ (slot_compIndex tage ip component tagged)
    · exact sound.tags component index slot
  · rw [lastBranchResult_phist]
    exact pushPath_lt _ _
  · rw [lastBranchResult_numBranches]
    have range := sound.numBranches
    have positive : (0 : Int) < resetUsefulInterval := by decide
    split <;> omega
  · rw [infoSame]
    exact sound.provider
  · rw [infoSame]
    exact sound.altpred

/-- Between a prediction and its result `branch_info` describes the branch. -/
def Prepared (state : Tage × Rand) (predicted : Option Address) : Prop :=
  ∀ ip, predicted = some ip → Ready state.1 ip

theorem reaches_prepared (memory : Tage) (stream : Rand) (calls : List Call)
    (session : Session (Tage × Rand)) (ran : Reaches memory stream calls session) :
    Sound session.predictor.1 ∧ Prepared session.predictor session.predicted := by
  refine predictor.run_invariant (fun state ip => Ready state.1 ip) (fun state => Sound state.1)
    ?_ ?_ ?_ calls (fresh memory, stream) session (fresh_sound memory) ran
  · intro state ip
    exact ready_predictBranch state.1 ip
  · intro state ip sound
    exact sound.predictBranch ip
  · intro state ip taken ready sound
    exact sound.lastBranchResult ip taken state.2 ready

/-- Every subscript and every register of the predictor is in its range. -/
structure WithinRanges (tage : Tage) : Prop where
  indexHash : ∀ ip component, component ∈ components →
    (tage.indexHash ip component).toNat < 1024 ∧ CArray.InBounds 12 (component - 1)
  bimodalIndex : ∀ ip : Address, ip.toNat % bimodalEntries < 16384
  allocation : ∀ random component,
    component ∈ Int.range (nextComp tage.branchInfo.providerComp random) numComponents →
      component ∈ components
  provider : tage.branchInfo.providerComp = -1 ∨
    ((1 ≤ tage.branchInfo.providerComp ∧ tage.branchInfo.providerComp ≤ 12) ∧
      0 ≤ tage.branchInfo.providerIndex ∧ tage.branchInfo.providerIndex < 1024)
  altpred : tage.branchInfo.altpredComp = -1 ∨
    ((1 ≤ tage.branchInfo.altpredComp ∧
      tage.branchInfo.altpredComp ≤ tage.branchInfo.providerComp - 1) ∧
      0 ≤ tage.branchInfo.altpredIndex ∧ tage.branchInfo.altpredIndex < 1024)
  entries : ∀ component index, Slot component index →
    (0 ≤ (tage.entry component index).pred.value ∧ (tage.entry component index).pred.value ≤ 7) ∧
      (0 ≤ (tage.entry component index).u.value ∧ (tage.entry component index).u.value ≤ 3) ∧
      0 ≤ (tage.entry component index).tag.toInt ∧
      (tage.entry component index).tag.toInt ≤ 2 ^ ofComponent tagWidths component - 1
  bimodal : ∀ index, CArray.InBounds bimodalEntries index →
    0 ≤ (tage.bimodalTable.get index).value ∧ (tage.bimodalTable.get index).value ≤ 3
  useAltOnNa : 0 ≤ tage.useAltOnNa.value ∧ tage.useAltOnNa.value ≤ 15
  phist : tage.phist.toNat ≤ 65535
  numBranches : 0 ≤ tage.numBranches ∧ tage.numBranches ≤ 524287

theorem reaches_withinRanges (memory : Tage) (stream : Rand) (calls : List Call)
    (session : Session (Tage × Rand)) (ran : Reaches memory stream calls session) :
    WithinRanges session.predictor.1 := by
  obtain ⟨sound, _prepared⟩ := reaches_prepared memory stream calls session ran
  generalize session.predictor.1 = tage at sound
  have providerRange : -1 ≤ tage.branchInfo.providerComp ∧ tage.branchInfo.providerComp ≠ 0 := by
    rcases sound.provider with absent | slot
    · rw [absent]
      decide
    · have range := slot.1
      omega
  constructor
  · intro ip component tagged
    have range := (mem_components component).mp tagged
    exact ⟨tage.indexHash_lt ip component tagged, by omega, by omega⟩
  · intro ip
    exact Nat.mod_lt _ (by decide)
  · intro random component candidate
    exact ((mem_candidates _ random providerRange component).mp candidate).1
  · rcases sound.provider with absent | slot
    · exact Or.inl absent
    · exact Or.inr slot
  · rcases sound.altpred with absent | ⟨below, slot⟩
    · exact Or.inl absent
    · exact Or.inr ⟨⟨slot.1.1, by omega⟩, slot.2⟩
  · intro component index slot
    have tagBound := sound.tags component index slot
    have width := tagWidths_range component ((mem_components component).mpr slot.1)
    have widthBound : 2 ^ ofComponent tagWidths component ≤ 2 ^ 15 :=
      Nat.pow_le_pow_right (by decide) width.2
    have nonnegative : (tage.entry component index).tag.toInt =
        ((tage.entry component index).tag.toNat : Int) :=
      BitVec.toInt_eq_toNat_of_lt (by omega)
    refine ⟨⟨(tage.entry component index).pred.atLeast, (tage.entry component index).pred.atMost⟩,
      ⟨(tage.entry component index).u.atLeast, (tage.entry component index).u.atMost⟩, ?_, ?_⟩
    · rw [nonnegative]
      omega
    · rw [nonnegative]
      have cast : ((2 ^ ofComponent tagWidths component : Nat) : Int) =
          2 ^ ofComponent tagWidths component := by push_cast; rfl
      omega
  · intro index _within
    exact ⟨(tage.bimodalTable.get index).atLeast, (tage.bimodalTable.get index).atMost⟩
  · exact ⟨tage.useAltOnNa.atLeast, tage.useAltOnNa.atMost⟩
  · have bound := sound.phist
    unfold phistBits at bound
    omega
  · have range := sound.numBranches
    unfold resetUsefulInterval at range
    omega

theorem reaches_withinRanges_one_branch :
    WithinRanges (predictor.feed (fresh default, fun _ => 0) [(64, true)]).1 :=
  reaches_withinRanges default (fun _ => 0) (PredictorModule.callsOf [(64, true)])
    ⟨predictor.feed (fresh default, fun _ => 0) [(64, true)], none⟩ rfl

end ChampSim.Tage

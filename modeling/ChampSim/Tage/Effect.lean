/-
What one `last_branch_result` does to the tagged tables, said once.

After the prediction of `ip`, the update of `ip` touches one slot in each
component; `updatedSlot` is what it leaves there, and the periodic reset is the
only other change. Every property of the update is derived from
`entry_lastBranchResult`.
-/

import ChampSim.Tage.Update
import Mathlib.Data.List.Find

set_option autoImplicit false

namespace ChampSim.Tage

open Msl Branch ShiftRegister

/-- The state between the prediction of `ip` and its result. -/
def Ready (tage : Tage) (ip : Address) : Prop := PredictionOf tage ip tage.branchInfo

theorem ready_predictBranch (tage : Tage) (ip : Address) :
    Ready (tage.predictBranch ip).2 ip := by
  have described := predictBranch_info tage ip
  obtain ⟨info, same⟩ := predictBranch_frame tage ip
  have ultimate : ({ tage with branchInfo := info } : Tage).predictBranch ip =
      ((tage.predictBranch ip).1,
        ({ tage with branchInfo := info } : Tage).predictBranch ip |>.2) := by
    refine Prod.ext ?_ rfl
    rw [predictBranch_prediction, predictBranch_prediction]
    rfl
  rw [same] at described ⊢
  exact
    { provider := described.provider
      altpred := described.altpred
      bimodal := described.bimodal
      providerIndex := described.providerIndex
      providerPred := described.providerPred
      altpredIndex := described.altpredIndex
      altpredPred := described.altpredPred
      ultimate := by rw [ultimate]; exact described.ultimate }

theorem entry_modifyEntry (tage : Tage) (component index other otherIndex : Int)
    (change : TageEntry → TageEntry) (slot : Slot other otherIndex) :
    (tage.modifyEntry component index change).entry other otherIndex =
      if other = component ∧ otherIndex = index then change (tage.entry other otherIndex)
      else tage.entry other otherIndex := by
  unfold modifyEntry
  by_cases same : other = component ∧ otherIndex = index
  · obtain ⟨sameComponent, sameIndex⟩ := same
    subst sameComponent sameIndex
    rw [if_pos ⟨rfl, rfl⟩, entry_setEntry_same _ _ _ _ slot]
  · rw [if_neg same]
    apply entry_setEntry_other
    by_cases sameComponent : other = component
    · exact Or.inr (fun sameIndex => same ⟨sameComponent, sameIndex⟩)
    · exact Or.inl sameComponent

/-! ### Training -/

/-- The first four stages: everything before the allocation. -/
def train (tage : Tage) (ip : Address) (taken : Bool) : Tage :=
  (((tage.updateUseAltOnNa taken).updateCtr ip taken).updateAltpred taken).updateUseful taken

theorem train_sameFrame (tage : Tage) (ip : Address) (taken : Bool) :
    SameFrame (tage.train ip taken) tage :=
  (updateUseful_sameFrame _ _).trans ((updateAltpred_sameFrame _ _).trans
    ((updateCtr_sameFrame _ _ _).trans (updateUseAltOnNa_sameFrame _ _)))

def Trained (tage : Tage) (ip : Address) (component : Int) : Prop :=
  component = tage.providerComp ip ∨
    (component = tage.altpredComp ip ∧
      (tage.slotEntry ip (tage.providerComp ip)).u.value = 0)

instance (tage : Tage) (ip : Address) (component : Int) :
    Decidable (Trained tage ip component) := inferInstanceAs (Decidable (_ ∨ _))

def trainedUseful (tage : Tage) (ip : Address) (taken : Bool) (component : Int) : Fwcounter 2 :=
  let u := (tage.slotEntry ip component).u
  if component = tage.providerComp ip ∧
      tage.branchInfo.ultimatePred ≠ altpredPrediction tage.branchInfo then
    if tage.branchInfo.ultimatePred = taken then u.addAssign 1 else u.subAssign 1
  else u

def trainedSlot (tage : Tage) (ip : Address) (taken : Bool) (component : Int) : TageEntry :=
  let entry := tage.slotEntry ip component
  { pred := if Trained tage ip component then entry.pred.addAssign (outcomeStep taken)
      else entry.pred
    tag := entry.tag
    u := tage.trainedUseful ip taken component }

theorem entry_updateUseAltOnNa (tage : Tage) (taken : Bool) (component index : Int) :
    (tage.updateUseAltOnNa taken).entry component index = tage.entry component index := by
  unfold updateUseAltOnNa
  dsimp only
  split <;> rfl

theorem entry_updateCtr (tage : Tage) (ip : Address) (taken : Bool) (component index : Int)
    (slot : Slot component index) :
    (tage.updateCtr ip taken).entry component index =
      { tage.entry component index with
        pred :=
          if component = tage.branchInfo.providerComp ∧ index = tage.branchInfo.providerIndex then
            (tage.entry component index).pred.addAssign (outcomeStep taken)
          else (tage.entry component index).pred } := by
  unfold updateCtr
  dsimp only
  split
  · rw [entry_modifyEntry _ _ _ _ _ _ slot]
    split <;> rfl
  · rename_i absent
    have different : component ≠ tage.branchInfo.providerComp := by
      intro same
      obtain ⟨⟨low, _⟩, _⟩ := slot
      exact absent (by omega)
    rw [if_neg (fun both => different both.1)]
    rfl

theorem entry_updateAltpred (tage : Tage) (taken : Bool) (component index : Int)
    (slot : Slot component index) :
    (tage.updateAltpred taken).entry component index =
      { tage.entry component index with
        pred :=
          if (tage.branchInfo.providerComp ≠ -1 ∧
              (tage.entry tage.branchInfo.providerComp tage.branchInfo.providerIndex).u.value = 0) ∧
              component = tage.branchInfo.altpredComp ∧ index = tage.branchInfo.altpredIndex then
            (tage.entry component index).pred.addAssign (outcomeStep taken)
          else (tage.entry component index).pred } := by
  unfold updateAltpred
  dsimp only
  split
  · rename_i enabled
    rw [entry_modifyEntry _ _ _ _ _ _ slot]
    simp only [enabled.1, enabled.2.1, ne_eq, not_false_eq_true, true_and]
    split
    · cases taken <;> rfl
    · rfl
  · rename_i disabled
    rw [if_neg]
    · rintro ⟨⟨provided, unused⟩, same, _⟩
      obtain ⟨⟨low, _⟩, _⟩ := slot
      exact disabled ⟨provided, unused, by omega⟩

theorem entry_updateUseful (tage : Tage) (taken : Bool) (component index : Int)
    (slot : Slot component index) :
    (tage.updateUseful taken).entry component index =
      { tage.entry component index with
        u :=
          if (component = tage.branchInfo.providerComp ∧ index = tage.branchInfo.providerIndex) ∧
              tage.branchInfo.ultimatePred ≠ altpredPrediction tage.branchInfo then
            if tage.branchInfo.ultimatePred = taken then (tage.entry component index).u.addAssign 1
            else (tage.entry component index).u.subAssign 1
          else (tage.entry component index).u } := by
  unfold updateUseful
  dsimp only
  split
  · rename_i enabled
    rw [entry_modifyEntry _ _ _ _ _ _ slot]
    simp only [enabled.2, ne_eq, not_false_eq_true, and_true]
    split <;> rfl
  · rename_i disabled
    rw [if_neg]
    · rintro ⟨⟨same, _⟩, disagrees⟩
      obtain ⟨⟨low, _⟩, _⟩ := slot
      exact disabled ⟨by omega, disagrees⟩

theorem Ready.providerSlot {tage : Tage} {ip : Address} (ready : Ready tage ip)
    {component index : Int} (slot : Slot component index) :
    (component = tage.branchInfo.providerComp ∧ index = tage.branchInfo.providerIndex) ↔
      index = tage.compIndex ip component ∧ component = tage.providerComp ip := by
  rw [ready.provider, and_comm]
  refine and_congr_left (fun same => ?_)
  have present : tage.providerComp ip ≠ -1 := by
    obtain ⟨⟨low, _⟩, _⟩ := slot
    omega
  rw [ready.providerIndex present, same]

theorem Ready.altpredSlot {tage : Tage} {ip : Address} (ready : Ready tage ip)
    {component index : Int} (slot : Slot component index) :
    (component = tage.branchInfo.altpredComp ∧ index = tage.branchInfo.altpredIndex) ↔
      index = tage.compIndex ip component ∧ component = tage.altpredComp ip := by
  rw [ready.altpred, and_comm]
  refine and_congr_left (fun same => ?_)
  have present : tage.altpredComp ip ≠ -1 := by
    obtain ⟨⟨low, _⟩, _⟩ := slot
    omega
  rw [ready.altpredIndex present, same]

/-- The alternate's counter is trained exactly when the provider's usefulness,
which the counter update before it leaves alone, is still 0. -/
private theorem altpred_enabled (tage : Tage) (ip : Address) (taken : Bool) (ready : Ready tage ip)
    (component : Int) (tagged : component ∈ components) :
    ((tage.branchInfo.providerComp ≠ -1 ∧
      (((tage.updateUseAltOnNa taken).updateCtr ip taken).entry tage.branchInfo.providerComp
        tage.branchInfo.providerIndex).u.value = 0) ∧ component = tage.altpredComp ip) ↔
      (component = tage.altpredComp ip ∧
        (tage.slotEntry ip (tage.providerComp ip)).u.value = 0) := by
  rw [and_comm]
  refine and_congr_right (fun alternate => ?_)
  have altPresent : tage.altpredComp ip ≠ -1 := by
    have range := (mem_components component).mp tagged
    omega
  have present := providerComp_ne_of_altpredComp tage ip altPresent
  have slot := slot_compIndex tage ip _ (providerComp_mem tage ip present)
  rw [ready.provider, ready.providerIndex present, entry_updateCtr _ _ _ _ _ slot,
    entry_updateUseAltOnNa]
  exact ⟨fun both => both.2, fun unused => ⟨present, unused⟩⟩

theorem entry_train (tage : Tage) (ip : Address) (taken : Bool) (ready : Ready tage ip)
    (component index : Int) (slot : Slot component index) :
    (tage.train ip taken).entry component index =
      if index = tage.compIndex ip component then tage.trainedSlot ip taken component
      else tage.entry component index := by
  have tagged : component ∈ components := (mem_components component).mpr slot.1
  have infoFirst := (updateUseAltOnNa_sameFrame tage taken).branchInfo
  have infoSecond :=
    ((updateCtr_sameFrame (tage.updateUseAltOnNa taken) ip taken).branchInfo).trans infoFirst
  have infoThird := ((updateAltpred_sameFrame
    ((tage.updateUseAltOnNa taken).updateCtr ip taken) taken).branchInfo).trans infoSecond
  unfold train
  rw [entry_updateUseful _ _ _ _ slot, entry_updateAltpred _ _ _ _ slot,
    entry_updateCtr _ _ _ _ _ slot, entry_updateUseAltOnNa, infoFirst, infoSecond, infoThird]
  simp only [ready.providerSlot slot, ready.altpredSlot slot]
  by_cases here : index = tage.compIndex ip component
  · subst here
    have alternate := altpred_enabled tage ip taken ready component tagged
    simp only [true_and, if_true, alternate]
    refine TageEntry.ext ?_ rfl rfl
    simp only [trainedSlot]
    by_cases provides : component = tage.providerComp ip
    · have notAlternate : component ≠ tage.altpredComp ip := by
        intro same
        have range := (mem_components component).mp tagged
        have below := (altpredComp_mem tage ip (by omega)).2
        omega
      have trained : Trained tage ip component := Or.inl provides
      rw [if_neg (fun both => notAlternate both.1), if_pos provides, if_pos trained]
      rfl
    · rw [if_neg provides]
      by_cases trains : component = tage.altpredComp ip ∧
          (tage.slotEntry ip (tage.providerComp ip)).u.value = 0
      · have trained : Trained tage ip component := Or.inr trains
        rw [if_pos trains, if_pos trained]
        rfl
      · have untrained : ¬Trained tage ip component := fun either => either.elim provides trains
        rw [if_neg trains, if_neg untrained]
        rfl
  · simp only [here, false_and, and_false, if_false]

/-! ### Allocation -/

/-- The search for a free entry starts above the provider and inside the tagged
components, whatever the random number is. -/
theorem nextComp_above (provider : Int) (random : Nat) (range : -1 ≤ provider ∧ provider ≠ 0) :
    provider < nextComp provider random ∧ 1 ≤ nextComp provider random := by
  obtain ⟨low, nonzero⟩ := range
  unfold nextComp
  dsimp only
  split <;> split <;> (try split) <;> omega

theorem providerComp_range (tage : Tage) (ip : Address) :
    -1 ≤ tage.providerComp ip ∧ tage.providerComp ip ≠ 0 := by
  by_cases absent : tage.providerComp ip = -1
  · rw [absent]
    decide
  · have range := (mem_components _).mp (providerComp_mem tage ip absent)
    omega

theorem mem_candidates (provider : Int) (random : Nat) (range : -1 ≤ provider ∧ provider ≠ 0)
    (component : Int) :
    component ∈ Int.range (nextComp provider random) numComponents ↔
      component ∈ components ∧ nextComp provider random ≤ component := by
  have above := (nextComp_above provider random range).2
  rw [Int.mem_range_iff, mem_components]
  unfold numComponents
  omega

/-- The component that the update allocates, if it allocates. -/
def allocatedComponent (tage : Tage) (ip : Address) (taken : Bool) (random : Nat) : Option Int :=
  if allocates tage.branchInfo taken then
    tage.freeComponent ip (nextComp (tage.providerComp ip) random)
  else none

/-- What the update leaves in the slot of a component, before the periodic
reset. -/
def updatedSlot (tage : Tage) (ip : Address) (taken : Bool) (random : Nat) (component : Int) :
    TageEntry :=
  let trained := tage.trainedSlot ip taken component
  if tage.allocatedComponent ip taken random = some component then
    { pred := trained.pred.assign (weak taken)
      tag := tage.tagHash ip component
      u := trained.u.assign 0 }
  else if (allocates tage.branchInfo taken = true ∧
      tage.allocatedComponent ip taken random = none) ∧
      nextComp (tage.providerComp ip) random ≤ component then
    { trained with u := trained.u.subAssign 1 }
  else trained

theorem slotEntry_train (tage : Tage) (ip : Address) (taken : Bool) (ready : Ready tage ip)
    (component : Int) (tagged : component ∈ components) :
    (tage.train ip taken).slotEntry ip component = tage.trainedSlot ip taken component := by
  unfold slotEntry
  rw [(train_sameFrame tage ip taken).sameHistory.compIndex,
    entry_train tage ip taken ready _ _ (slot_compIndex tage ip component tagged), if_pos rfl]

theorem trainedUseful_of_ne (tage : Tage) (ip : Address) (taken : Bool) (component : Int)
    (different : component ≠ tage.providerComp ip) :
    tage.trainedUseful ip taken component = (tage.slotEntry ip component).u := by
  unfold trainedUseful
  dsimp only
  rw [if_neg (fun both => different both.1)]

/-- Training leaves the usefulness of the longer components alone, so that the
search sees what the prediction saw. -/
theorem freeComponent_train (tage : Tage) (ip : Address) (taken : Bool) (random : Nat)
    (ready : Ready tage ip) :
    (tage.train ip taken).freeComponent ip (nextComp (tage.providerComp ip) random) =
      tage.freeComponent ip (nextComp (tage.providerComp ip) random) := by
  have range := providerComp_range tage ip
  have above := (nextComp_above _ random range).1
  unfold freeComponent
  apply List.find?_congr
  intro component candidate
  obtain ⟨tagged, longer⟩ := (mem_candidates _ random range component).mp candidate
  rw [slotEntry_train tage ip taken ready component tagged, trainedSlot,
    trainedUseful_of_ne tage ip taken component (by omega)]

theorem entry_allocateEntry (tage : Tage) (ip : Address) (taken : Bool)
    (allocated component index : Int) (slot : Slot component index) :
    (tage.allocateEntry ip taken allocated).entry component index =
      if component = allocated ∧ index = tage.compIndex ip component then
        { pred := (tage.entry component index).pred.assign (weak taken)
          tag := tage.tagHash ip component
          u := (tage.entry component index).u.assign 0 }
      else tage.entry component index := by
  unfold allocateEntry
  rw [entry_modifyEntry _ _ _ _ _ _ slot]
  by_cases same : component = allocated
  · subst same
    rfl
  · rw [if_neg (fun both => same both.1), if_neg (fun both => same both.1)]

private theorem entry_decrement_fold (ip : Address) (candidates : List Int)
    (distinct : candidates.Nodup) (tagged : ∀ component ∈ candidates, component ∈ components)
    (tage : Tage) (component index : Int) (slot : Slot component index) :
    (candidates.foldl (fun tage i => tage.modifyEntry i (tage.indexHash ip i).toNat
      (fun entry => { entry with u := entry.u.subAssign 1 })) tage).entry component index =
      if component ∈ candidates ∧ index = tage.compIndex ip component then
        { tage.entry component index with u := (tage.entry component index).u.subAssign 1 }
      else tage.entry component index := by
  induction candidates generalizing tage with
  | nil => simp only [List.foldl_nil, List.not_mem_nil, false_and, if_false]
  | cons first rest ih =>
      obtain ⟨notLater, distinctRest⟩ := List.nodup_cons.mp distinct
      rw [List.foldl_cons, ih distinctRest
        (fun later member => tagged later (List.mem_cons_of_mem first member)),
        entry_modifyEntry _ _ _ _ _ _ slot,
        (modifyEntry_sameFrame _ _ _ _).sameHistory.compIndex,
        ← compIndex_eq_toNat tage ip first (tagged first (List.mem_cons_self ..))]
      by_cases same : component = first
      · subst same
        simp only [notLater, false_and, if_false, List.mem_cons, true_or, true_and]
      · simp only [same, false_and, if_false, List.mem_cons, false_or]

theorem entry_decrementUseful (tage : Tage) (ip : Address) (random : Nat)
    (component index : Int) (slot : Slot component index) (provider : Int)
    (range : -1 ≤ provider ∧ provider ≠ 0) :
    (tage.decrementUseful ip (nextComp provider random)).entry component index =
      if nextComp provider random ≤ component ∧ index = tage.compIndex ip component then
        { tage.entry component index with u := (tage.entry component index).u.subAssign 1 }
      else tage.entry component index := by
  have distinct : (Int.range (nextComp provider random) numComponents).Nodup :=
    List.Nodup.map (fun left right same => by simpa using same) List.nodup_range
  have tagged := (mem_components component).mpr slot.1
  unfold decrementUseful
  rw [entry_decrement_fold ip _ distinct
    (fun candidate member => ((mem_candidates provider random range candidate).mp member).1)
    tage component index slot]
  simp only [mem_candidates provider random range, tagged, true_and]

/-- Training and allocation together: one slot of each component changes. -/
theorem entry_allocate_train (tage : Tage) (ip : Address) (taken : Bool) (stream : Rand)
    (ready : Ready tage ip) (component index : Int) (slot : Slot component index) :
    ((tage.train ip taken).allocate ip taken stream).1.entry component index =
      if index = tage.compIndex ip component then
        tage.updatedSlot ip taken stream.rand component
      else tage.entry component index := by
  have frame := train_sameFrame tage ip taken
  have trainedEntry := entry_train tage ip taken ready component index slot
  have range := providerComp_range tage ip
  have free := freeComponent_train tage ip taken stream.rand ready
  have entryCase : ∀ change : TageEntry → TageEntry,
      (if index = tage.compIndex ip component then change (tage.trainedSlot ip taken component)
        else tage.entry component index) =
      if index = tage.compIndex ip component then
        change ((tage.train ip taken).entry component index)
      else (tage.train ip taken).entry component index := by
    intro change
    rw [trainedEntry]
    by_cases here : index = tage.compIndex ip component
    · simp only [if_pos here]
    · simp only [if_neg here]
  unfold allocate updatedSlot allocatedComponent
  dsimp only
  rw [frame.branchInfo, ready.provider, free]
  by_cases drawn : allocates tage.branchInfo taken = true
  · simp only [drawn, if_true, true_and]
    cases found : tage.freeComponent ip (nextComp (tage.providerComp ip) stream.rand) with
    | some allocated =>
        dsimp only
        rw [entry_allocateEntry _ _ _ _ _ _ slot, frame.sameHistory.compIndex,
          frame.sameHistory.tagHash]
        by_cases chosen : component = allocated
        · subst chosen
          simp only [true_and, if_true]
          exact (entryCase (fun entry =>
            { pred := entry.pred.assign (weak taken)
              tag := tage.tagHash ip component
              u := entry.u.assign 0 })).symm
        · have notSome : ¬some allocated = some component := by
            intro same
            exact chosen (Option.some.inj same).symm
          simp only [chosen, false_and, if_false, notSome, reduceCtorEq]
          exact trainedEntry
    | none =>
        dsimp only
        rw [entry_decrementUseful _ _ _ _ _ slot _ range, frame.sameHistory.compIndex]
        by_cases reached : nextComp (tage.providerComp ip) stream.rand ≤ component
        · simp only [reached, true_and, reduceCtorEq, if_false, and_self, if_true]
          exact (entryCase (fun entry => { entry with u := entry.u.subAssign 1 })).symm
        · simp only [reached, false_and, reduceCtorEq, if_false, and_false]
          exact trainedEntry
  · simp only [drawn, Bool.false_eq_true, if_false, reduceCtorEq, false_and]
    exact trainedEntry

/-! ### The periodic reset and the whole update -/

theorem entry_countBranch (tage : Tage) (component index : Int) (slot : Slot component index) :
    tage.countBranch.entry component index =
      ageEntry tage.numBranches (tage.entry component index) := by
  unfold countBranch ageEntry
  dsimp only
  split
  · exact CArray.at2_map2 _ _ _ _ slot.row slot.column
  · split
    · exact CArray.at2_map2 _ _ _ _ slot.row slot.column
    · rfl

theorem lastBranchResult_eq (tage : Tage) (ip : Address) (taken : Bool) (stream : Rand) :
    tage.lastBranchResult ip taken stream =
      ((((tage.train ip taken).allocate ip taken stream).1.countBranch.updateHistory ip taken),
        ((tage.train ip taken).allocate ip taken stream).2) := rfl

theorem entry_lastBranchResult (tage : Tage) (ip : Address) (taken : Bool) (stream : Rand)
    (ready : Ready tage ip) (component index : Int) (slot : Slot component index) :
    (tage.lastBranchResult ip taken stream).1.entry component index =
      ageEntry tage.numBranches
        (if index = tage.compIndex ip component then
          tage.updatedSlot ip taken stream.rand component
        else tage.entry component index) := by
  have frame := (allocate_sameFrame (tage.train ip taken) ip taken stream).trans
    (train_sameFrame tage ip taken)
  rw [lastBranchResult_eq]
  change ((tage.train ip taken).allocate ip taken stream).1.countBranch.entry component index = _
  rw [entry_countBranch _ _ _ slot, frame.numBranches,
    entry_allocate_train tage ip taken stream ready _ _ slot]

@[simp] theorem ageEntry_pred (numBranches : Int) (entry : TageEntry) :
    (ageEntry numBranches entry).pred = entry.pred := by
  unfold ageEntry
  split
  · rfl
  · split <;> rfl

@[simp] theorem ageEntry_tag (numBranches : Int) (entry : TageEntry) :
    (ageEntry numBranches entry).tag = entry.tag := by
  unfold ageEntry
  split
  · rfl
  · split <;> rfl

end ChampSim.Tage

/-
`Tage::predict_branch`: the search for the provider and the alternate
component, and the choice between them.

The search is described once, by `Longest`: what it means for a component to be
the longest one below a bound whose slot holds the tag of the branch.
-/

import ChampSim.Tage.Hash

set_option autoImplicit false

namespace ChampSim.Tage

open Msl Branch

def slotEntry (tage : Tage) (ip : Address) (component : Int) : TageEntry :=
  tage.entry component (tage.compIndex ip component)

/-- `tage_table[i - 1][tage_index[i]].tag == tage_tags[i]`. -/
def tagMatches (tage : Tage) (ip : Address) (component : Int) : Bool :=
  (tage.slotEntry ip component).tag == tage.tagHash ip component

/-- One pass of the search loop over `(provider_comp, altpred_comp)`. -/
def searchStep (matched : Int → Bool) (found : Int × Int) (component : Int) : Int × Int :=
  if matched component then
    (component, if found.1 ≠ -1 then found.1 else found.2)
  else found

def search (matched : Int → Bool) : Int × Int :=
  components.foldl (searchStep matched) (-1, -1)

def providerComp (tage : Tage) (ip : Address) : Int := (search (tage.tagMatches ip)).1

def altpredComp (tage : Tage) (ip : Address) : Int := (search (tage.tagMatches ip)).2

/-- The provider looks newly allocated and the alternate is trusted more. -/
def usesAltpred (tage : Tage) (provider : TageEntry) : Bool :=
  ((provider.pred.value == weaklyNotTaken || provider.pred.value == weaklyTaken) &&
    provider.u.value == 0) && decide (tage.useAltOnNa.value > 7)

def predictBranch (tage : Tage) (ip : Address) : Bool × Tage :=
  let basePred := tage.bimodalTable.get (ip.toNat % bimodalEntries : Nat)
  let provider := tage.providerComp ip
  let altpred := tage.altpredComp ip
  let info := { tage.branchInfo.reset with
    bimodalEntry := basePred
    providerComp := provider
    altpredComp := altpred }
  if provider = -1 then
    let prediction := predictsTaken basePred
    (prediction, { tage with branchInfo := { info with ultimatePred := prediction } })
  else
    let entry := tage.slotEntry ip provider
    let info := { info with
      providerIndex := tage.compIndex ip provider
      providerCompPred := predictsTaken entry.pred
      providerCompEntry := entry }
    let info :=
      if altpred ≠ -1 then
        { info with
          altpredIndex := tage.compIndex ip altpred
          altpredCompPred := predictsTaken (tage.slotEntry ip altpred).pred
          altpredCompEntry := tage.slotEntry ip altpred }
      else info
    let prediction :=
      if tage.usesAltpred entry then
        if altpred = -1 then predictsTaken basePred else info.altpredCompPred
      else info.providerCompPred
    (prediction, { tage with branchInfo := { info with ultimatePred := prediction } })

/-! ### What the search finds -/

/-- `found` is the last member of the list below `bound` that matches, or -1. -/
def Longest (matched : Int → Bool) (candidates : List Int) (bound found : Int) : Prop :=
  (found = -1 ∧ ∀ component ∈ candidates, component < bound → matched component = false) ∨
    (found ∈ candidates ∧ found < bound ∧ matched found = true ∧
      ∀ component ∈ candidates, found < component → component < bound → matched component = false)

private theorem Longest.extend {matched : Int → Bool} {earlier : List Int}
    {last bound found : Int} (longest : Longest matched earlier bound found)
    (rejected : last < bound → matched last = false) :
    Longest matched (earlier ++ [last]) bound found := by
  rcases longest with ⟨absent, unmatched⟩ | ⟨member, below, hit, unmatched⟩
  · refine Or.inl ⟨absent, ?_⟩
    intro component present inside
    rcases List.mem_append.mp present with early | atEnd
    · exact unmatched component early inside
    · rw [List.mem_singleton.mp atEnd] at inside ⊢
      exact rejected inside
  · refine Or.inr ⟨List.mem_append_left _ member, below, hit, ?_⟩
    intro component present above inside
    rcases List.mem_append.mp present with early | atEnd
    · exact unmatched component early above inside
    · rw [List.mem_singleton.mp atEnd] at inside ⊢
      exact rejected inside

private theorem longest_of_last {matched : Int → Bool} {earlier : List Int} {last bound : Int}
    (below : last < bound) (hit : matched last = true)
    (ascending : ∀ component ∈ earlier, component < last) :
    Longest matched (earlier ++ [last]) bound last := by
  refine Or.inr ⟨List.mem_append_right _ (List.mem_singleton.mpr rfl), below, hit, ?_⟩
  intro component present above _inside
  rcases List.mem_append.mp present with early | atEnd
  · have before := ascending component early
    omega
  · have same := List.mem_singleton.mp atEnd
    omega

private theorem search_fold (matched : Int → Bool) (candidates : List Int)
    (ascending : candidates.Pairwise (· < ·)) (positive : ∀ component ∈ candidates, 0 < component) :
    (∀ bound, (∀ component ∈ candidates, component < bound) →
      Longest matched candidates bound (candidates.foldl (searchStep matched) (-1, -1)).1) ∧
      Longest matched candidates (candidates.foldl (searchStep matched) (-1, -1)).1
        (candidates.foldl (searchStep matched) (-1, -1)).2 := by
  induction candidates using List.reverseRecOn with
  | nil =>
      constructor
      · intro bound _bounded
        exact Or.inl ⟨rfl, fun component impossible => by cases impossible⟩
      · exact Or.inl ⟨rfl, fun component impossible => by cases impossible⟩
  | append_singleton earlier last ih =>
      obtain ⟨ascendingEarlier, _single, beforeLast⟩ := List.pairwise_append.mp ascending
      have before : ∀ component ∈ earlier, component < last :=
        fun component early => beforeLast component early last (List.mem_singleton.mpr rfl)
      obtain ⟨provider, altpred⟩ := ih ascendingEarlier
        (fun component early => positive component (List.mem_append_left _ early))
      have lastPositive := positive last (List.mem_append_right _ (List.mem_singleton.mpr rfl))
      rw [List.foldl_append, List.foldl_cons, List.foldl_nil]
      generalize List.foldl (searchStep matched) (-1, -1) earlier = found at provider altpred ⊢
      have providerBelow := provider last before
      cases hit : matched last with
      | false =>
          simp only [searchStep, hit, Bool.false_eq_true, if_false]
          constructor
          · intro bound bounded
            exact (provider bound (fun component early =>
              bounded component (List.mem_append_left _ early))).extend (fun _inside => hit)
          · exact altpred.extend (fun _inside => hit)
      | true =>
          simp only [searchStep, hit, if_true]
          constructor
          · intro bound bounded
            exact longest_of_last
              (bounded last (List.mem_append_right _ (List.mem_singleton.mpr rfl))) hit before
          · by_cases absent : found.1 = -1
            · have none : found.2 = -1 := by
                rcases altpred with ⟨altAbsent, _⟩ | ⟨member, below, _, _⟩
                · exact altAbsent
                · have altPositive := positive found.2 (List.mem_append_left _ member)
                  omega
              rw [if_neg (fun present => present absent), none]
              rw [absent] at providerBelow
              exact providerBelow.extend (fun impossible => by omega)
            · rw [if_pos absent]
              exact providerBelow.extend (fun impossible => by omega)

private theorem components_ascending : components.Pairwise (· < ·) := by decide

/-- The provider is the longest matching component and the alternate the
longest matching one below it. -/
theorem search_longest (matched : Int → Bool) :
    Longest matched components numComponents (search matched).1 ∧
      Longest matched components (search matched).1 (search matched).2 := by
  have bounded : ∀ component ∈ components, component < numComponents := by
    intro component tagged
    have range := (mem_components component).mp tagged
    unfold numComponents
    omega
  have positive : ∀ component ∈ components, 0 < component := by
    intro component tagged
    have range := (mem_components component).mp tagged
    omega
  obtain ⟨provider, altpred⟩ := search_fold matched components components_ascending positive
  exact ⟨provider numComponents bounded, altpred⟩

theorem providerComp_longest (tage : Tage) (ip : Address) :
    Longest (tage.tagMatches ip) components numComponents (tage.providerComp ip) :=
  (search_longest (tage.tagMatches ip)).1

theorem altpredComp_longest (tage : Tage) (ip : Address) :
    Longest (tage.tagMatches ip) components (tage.providerComp ip) (tage.altpredComp ip) :=
  (search_longest (tage.tagMatches ip)).2

theorem Longest.found_mem {matched : Int → Bool} {candidates : List Int} {bound found : Int}
    (longest : Longest matched candidates bound found) (present : found ≠ -1) :
    found ∈ candidates ∧ found < bound ∧ matched found = true := by
  rcases longest with ⟨absent, _⟩ | ⟨member, below, hit, _⟩
  · exact absurd absent present
  · exact ⟨member, below, hit⟩

theorem Longest.unique {matched : Int → Bool} {candidates : List Int} {bound left right : Int}
    (first : Longest matched candidates bound left)
    (second : Longest matched candidates bound right) : left = right := by
  rcases first with ⟨leftAbsent, leftNone⟩ | ⟨leftIn, leftBelow, leftHit, leftLast⟩ <;>
    rcases second with ⟨rightAbsent, rightNone⟩ | ⟨rightIn, rightBelow, rightHit, rightLast⟩
  · rw [leftAbsent, rightAbsent]
  · rw [leftNone right rightIn rightBelow] at rightHit
    cases rightHit
  · rw [rightNone left leftIn leftBelow] at leftHit
    cases leftHit
  · rcases Int.lt_trichotomy left right with before | same | after
    · rw [leftLast right rightIn before rightBelow] at rightHit
      cases rightHit
    · exact same
    · rw [rightLast left leftIn after leftBelow] at leftHit
      cases leftHit

theorem providerComp_mem (tage : Tage) (ip : Address) (present : tage.providerComp ip ≠ -1) :
    tage.providerComp ip ∈ components :=
  ((providerComp_longest tage ip).found_mem present).1

theorem altpredComp_mem (tage : Tage) (ip : Address) (present : tage.altpredComp ip ≠ -1) :
    tage.altpredComp ip ∈ components ∧ tage.altpredComp ip < tage.providerComp ip :=
  let found := (altpredComp_longest tage ip).found_mem present
  ⟨found.1, found.2.1⟩

theorem providerComp_ne_of_altpredComp (tage : Tage) (ip : Address)
    (present : tage.altpredComp ip ≠ -1) : tage.providerComp ip ≠ -1 := by
  obtain ⟨member, below⟩ := altpredComp_mem tage ip present
  have range := (mem_components _).mp member
  omega

/-! ### What a prediction leaves behind -/

theorem predictBranch_frame (tage : Tage) (ip : Address) :
    ∃ info, (tage.predictBranch ip).2 = { tage with branchInfo := info } := by
  unfold predictBranch
  by_cases absent : tage.providerComp ip = -1
  · simp only [if_pos absent]
    exact ⟨_, rfl⟩
  · simp only [if_neg absent]
    exact ⟨_, rfl⟩

/-- `branch_info` as the update of the same branch will read it. -/
structure PredictionOf (tage : Tage) (ip : Address) (info : BranchInfo) : Prop where
  provider : info.providerComp = tage.providerComp ip
  altpred : info.altpredComp = tage.altpredComp ip
  bimodal : info.bimodalEntry = tage.bimodalTable.get (ip.toNat % bimodalEntries : Nat)
  providerIndex : tage.providerComp ip ≠ -1 →
    info.providerIndex = tage.compIndex ip (tage.providerComp ip)
  providerPred : tage.providerComp ip ≠ -1 →
    info.providerCompPred = predictsTaken (tage.slotEntry ip (tage.providerComp ip)).pred
  altpredIndex : tage.altpredComp ip ≠ -1 →
    info.altpredIndex = tage.compIndex ip (tage.altpredComp ip)
  altpredPred : tage.altpredComp ip ≠ -1 →
    info.altpredCompPred = predictsTaken (tage.slotEntry ip (tage.altpredComp ip)).pred
  ultimate : info.ultimatePred = (tage.predictBranch ip).1

theorem predictBranch_info (tage : Tage) (ip : Address) :
    PredictionOf tage ip (tage.predictBranch ip).2.branchInfo := by
  have both := providerComp_ne_of_altpredComp tage ip
  by_cases absent : tage.providerComp ip = -1
  · have altAbsent : tage.altpredComp ip = -1 := by
      by_contra present
      exact both present absent
    constructor <;> simp [predictBranch, absent, altAbsent]
  · by_cases altAbsent : tage.altpredComp ip = -1
    · constructor <;> simp [predictBranch, absent, altAbsent]
    · constructor <;> simp [predictBranch, absent, altAbsent]

theorem predictBranch_prediction (tage : Tage) (ip : Address) :
    (tage.predictBranch ip).1 =
      if tage.providerComp ip = -1 then
        predictsTaken (tage.bimodalTable.get (ip.toNat % bimodalEntries : Nat))
      else if tage.usesAltpred (tage.slotEntry ip (tage.providerComp ip)) then
        if tage.altpredComp ip = -1 then
          predictsTaken (tage.bimodalTable.get (ip.toNat % bimodalEntries : Nat))
        else predictsTaken (tage.slotEntry ip (tage.altpredComp ip)).pred
      else predictsTaken (tage.slotEntry ip (tage.providerComp ip)).pred := by
  by_cases absent : tage.providerComp ip = -1
  · simp only [predictBranch, if_pos absent]
  · by_cases altAbsent : tage.altpredComp ip = -1
    · simp [predictBranch, absent, altAbsent]
    · simp [predictBranch, absent, altAbsent]

end ChampSim.Tage

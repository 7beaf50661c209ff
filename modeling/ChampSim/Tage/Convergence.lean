/-
A branch that has become constant.

After 640 branches the history registers no longer change, so the branch keeps
its slot in every component. From then on `backlog` counts the branches that
can still be predicted wrong; every branch lowers it.
-/

import ChampSim.Tage.Allocation

set_option autoImplicit false

namespace ChampSim.Tage

open Msl Branch ShiftRegister

/-! ### Constant histories -/

theorem branch_ghist (state : Tage × Rand) (ip : Address) (taken : Bool) :
    (predictor.branch state (ip, taken)).1.ghist = push state.1.ghist taken := by
  change ((state.1.predictBranch ip).2.lastBranchResult ip taken state.2).1.ghist = _
  obtain ⟨info, frame⟩ := predictBranch_frame state.1 ip
  rw [lastBranchResult_ghist, frame]

theorem branch_phist (state : Tage × Rand) (ip : Address) (taken : Bool) :
    (predictor.branch state (ip, taken)).1.phist = pushPath state.1.phist ip := by
  change ((state.1.predictBranch ip).2.lastBranchResult ip taken state.2).1.phist = _
  obtain ⟨info, frame⟩ := predictBranch_frame state.1 ip
  rw [lastBranchResult_phist, frame]

/-- A path register that has seen only one address for `count` branches. -/
def ConstantPath (phist : BitVec 32) (ip : Address) (count : Nat) : Prop :=
  ∀ position, position < count →
    phist.getLsbD position = (decide (position < phistBits) && ip.getLsbD 0)

theorem ConstantPath.pushPath {phist : BitVec 32} {ip : Address} {count : Nat}
    (constant : ConstantPath phist ip count) : ConstantPath (pushPath phist ip) ip (count + 1) := by
  intro position newer
  cases position with
  | zero => exact getLsbD_pushPath_zero phist ip
  | succ earlier =>
      rw [getLsbD_pushPath_succ, constant earlier (by omega)]
      by_cases inside : earlier + 1 < phistBits
      · have before : earlier < phistBits := by omega
        simp only [inside, before, decide_true, Bool.true_and]
      · simp only [inside, decide_false, Bool.false_and]

theorem ConstantPath.unique {left right : BitVec 32} {ip : Address} {count : Nat}
    (first : ConstantPath left ip count) (second : ConstantPath right ip count)
    (whole : 32 ≤ count) : left = right := by
  apply BitVec.eq_of_getLsbD_eq
  intro position inside
  rw [first position (by omega), second position (by omega)]

theorem constant_histories (state : Tage × Rand) (ip : Address) (taken : Bool) (count : Nat) :
    Recent (predictor.feed state (List.replicate count (ip, taken))).1.ghist count taken ∧
      ConstantPath (predictor.feed state (List.replicate count (ip, taken))).1.phist ip count := by
  induction count with
  | zero => exact ⟨recent_zero _ _, fun position impossible => absurd impossible (Nat.not_lt_zero _)⟩
  | succ count ih =>
      rw [PredictorModule.feed_replicate_succ, branch_ghist, branch_phist]
      exact ⟨ih.1.push, ih.2.pushPath⟩

/-- Once the history is constant, one more branch does not move the hashes. -/
theorem sameHistory_branch (state : Tage × Rand) (ip : Address) (taken : Bool) (count : Nat)
    (long : ghistBits ≤ count) :
    SameHistory
      (predictor.feed state (List.replicate (count + 1) (ip, taken))).1
      (predictor.feed state (List.replicate count (ip, taken))).1 := by
  obtain ⟨recentBefore, pathBefore⟩ := constant_histories state ip taken count
  obtain ⟨recentAfter, pathAfter⟩ := constant_histories state ip taken (count + 1)
  unfold ghistBits at long
  constructor
  · intro i inside
    unfold ghistBits at inside
    rw [recentAfter i (by omega) (by unfold ghistBits; omega),
      recentBefore i (by omega) (by unfold ghistBits; omega)]
  · have shorter : ConstantPath (predictor.feed state
        (List.replicate (count + 1) (ip, taken))).1.phist ip count :=
      fun position newer => pathAfter position (by omega)
    exact shorter.unique pathBefore (by omega)

/-! ### How far a counter is from an outcome -/

section Counters

variable {width : Nat}

/-- The outcomes that a counter needs before it predicts `taken`. -/
def lag (taken : Bool) (counter : Fwcounter width) : Nat :=
  if taken then (counter.maximum / 2 + 1 - counter.value).toNat
  else (counter.value - counter.maximum / 2).toNat

theorem lag_eq_zero_iff (taken : Bool) (counter : Fwcounter width) :
    lag taken counter = 0 ↔ predictsTaken counter = taken := by
  unfold lag predictsTaken
  cases taken with
  | true =>
      simp only [if_true, decide_eq_true_eq]
      omega
  | false =>
      simp only [Bool.false_eq_true, if_false, decide_eq_false_iff_not]
      omega

theorem lag_addAssign (taken : Bool) (counter : Fwcounter width) (counts : 0 < width) :
    lag taken (counter.addAssign (outcomeStep taken)) = lag taken counter - 1 := by
  have atLeast := counter.atLeast
  have atMost := counter.atMost
  have power : (2 : Int) ^ 1 ≤ 2 ^ width := pow_le_pow_right₀ (by decide) counts
  unfold lag BaseFwcounter.maximum outcomeStep
  cases taken with
  | true =>
      simp only [if_true, BaseFwcounter.addAssign_one_value]
      omega
  | false =>
      simp only [Bool.false_eq_true, if_false, BaseFwcounter.addAssign_neg_one,
        BaseFwcounter.subAssign_one_value]
      omega

theorem lag_le (taken : Bool) (counter : Fwcounter width) (narrow : width ≤ 3) :
    lag taken counter ≤ 4 := by
  have atLeast := counter.atLeast
  have atMost := counter.atMost
  have power : (2 : Int) ^ width ≤ 2 ^ 3 := pow_le_pow_right₀ (by decide) narrow
  unfold lag BaseFwcounter.maximum
  cases taken with
  | true =>
      simp only [if_true]
      omega
  | false =>
      simp only [Bool.false_eq_true, if_false]
      omega

end Counters

/-! ### One branch under a constant history -/

section ConstantHistory

variable {tage : Tage} {ip : Address} {taken : Bool} {stream : Rand}

theorem slotEntry_after (ready : Ready tage ip)
    (fixed : SameHistory (tage.lastBranchResult ip taken stream).1 tage)
    {component : Int} (tagged : component ∈ components) :
    (tage.lastBranchResult ip taken stream).1.slotEntry ip component =
      ageEntry tage.numBranches (tage.updatedSlot ip taken stream.rand component) := by
  unfold slotEntry
  rw [fixed.compIndex, slot_after tage ip taken stream ready component tagged]

theorem tagMatches_after (ready : Ready tage ip)
    (fixed : SameHistory (tage.lastBranchResult ip taken stream).1 tage)
    {component : Int} (tagged : component ∈ components) :
    (tage.lastBranchResult ip taken stream).1.tagMatches ip component =
      (decide (tage.allocatedComponent ip taken stream.rand = some component) ||
        tage.tagMatches ip component) := by
  unfold tagMatches
  rw [slotEntry_after ready fixed tagged, fixed.tagHash, ageEntry_tag, updatedSlot_tag]
  by_cases chosen : tage.allocatedComponent ip taken stream.rand = some component
  · simp only [chosen, if_true, decide_true, Bool.true_or, beq_self_eq_true]
  · simp only [chosen, if_false, decide_false, Bool.false_or]

theorem Longest.congr {matched other : Int → Bool} {candidates : List Int} {bound found : Int}
    (longest : Longest matched candidates bound found)
    (same : ∀ component ∈ candidates, component < bound → other component = matched component) :
    Longest other candidates bound found := by
  rcases longest with ⟨absent, unmatched⟩ | ⟨member, below, hit, unmatched⟩
  · refine Or.inl ⟨absent, ?_⟩
    intro component present inside
    rw [same component present inside]
    exact unmatched component present inside
  · refine Or.inr ⟨member, below, ?_, ?_⟩
    · rw [same found member below]
      exact hit
    · intro component present above inside
      rw [same component present inside]
      exact unmatched component present above inside

theorem search_kept (ready : Ready tage ip)
    (fixed : SameHistory (tage.lastBranchResult ip taken stream).1 tage)
    (nothing : tage.allocatedComponent ip taken stream.rand = none) :
    (tage.lastBranchResult ip taken stream).1.providerComp ip = tage.providerComp ip ∧
      (tage.lastBranchResult ip taken stream).1.altpredComp ip = tage.altpredComp ip := by
  have same : ∀ component ∈ components,
      (tage.lastBranchResult ip taken stream).1.tagMatches ip component =
        tage.tagMatches ip component := by
    intro component tagged
    rw [tagMatches_after ready fixed tagged, nothing]
    simp only [reduceCtorEq, decide_false, Bool.false_or]
  have provider : (tage.lastBranchResult ip taken stream).1.providerComp ip =
      tage.providerComp ip :=
    (providerComp_longest _ ip).unique
      ((providerComp_longest tage ip).congr (fun component tagged _inside => same component tagged))
  refine ⟨provider, ?_⟩
  have altpred := altpredComp_longest (tage.lastBranchResult ip taken stream).1 ip
  rw [provider] at altpred
  exact altpred.unique
    ((altpredComp_longest tage ip).congr (fun component tagged _inside => same component tagged))

theorem search_moved (ready : Ready tage ip)
    (fixed : SameHistory (tage.lastBranchResult ip taken stream).1 tage)
    {allocated : Int} (chosen : tage.allocatedComponent ip taken stream.rand = some allocated) :
    (tage.lastBranchResult ip taken stream).1.providerComp ip = allocated ∧
      (tage.lastBranchResult ip taken stream).1.altpredComp ip = tage.providerComp ip := by
  have effect := allocation_of_chosen tage ip taken stream ready allocated chosen
  have longer := effect.longer
  rw [ready.provider] at longer
  have allocatedRange := (mem_components allocated).mp effect.tagged
  have matched : ∀ component ∈ components, component ≠ allocated →
      (tage.lastBranchResult ip taken stream).1.tagMatches ip component =
        tage.tagMatches ip component := by
    intro component tagged different
    have kept : ¬some allocated = some component := by
      intro same
      exact different (Option.some.inj same).symm
    rw [tagMatches_after ready fixed tagged, chosen]
    simp only [kept, decide_false, Bool.false_or]
  have above : ∀ component ∈ components, allocated < component →
      (tage.lastBranchResult ip taken stream).1.tagMatches ip component = false := by
    intro component tagged beyond
    have range := (mem_components component).mp tagged
    rw [matched component tagged (by omega)]
    rcases providerComp_longest tage ip with ⟨_none, unmatched⟩ | ⟨_, _, _, unmatched⟩
    · exact unmatched component tagged (by unfold numComponents; omega)
    · exact unmatched component tagged (by omega) (by unfold numComponents; omega)
  have provider : (tage.lastBranchResult ip taken stream).1.providerComp ip = allocated := by
    apply (providerComp_longest _ ip).unique
    refine Or.inr ⟨effect.tagged, by unfold numComponents; omega, ?_, ?_⟩
    · rw [tagMatches_after ready fixed effect.tagged, chosen]
      simp only [decide_true, Bool.true_or]
    · intro component tagged beyond _inside
      exact above component tagged beyond
  refine ⟨provider, ?_⟩
  have altpred := altpredComp_longest (tage.lastBranchResult ip taken stream).1 ip
  rw [provider] at altpred
  apply altpred.unique
  have before : Longest (tage.tagMatches ip) components allocated (tage.providerComp ip) := by
    rcases providerComp_longest tage ip with ⟨absent, unmatched⟩ | ⟨member, _, hit, unmatched⟩
    · refine Or.inl ⟨absent, ?_⟩
      intro component tagged _inside
      have range := (mem_components component).mp tagged
      exact unmatched component tagged (by unfold numComponents; omega)
    · refine Or.inr ⟨member, longer, hit, ?_⟩
      intro component tagged beyond _inside
      have range := (mem_components component).mp tagged
      exact unmatched component tagged beyond (by unfold numComponents; omega)
  exact before.congr (fun component tagged inside => matched component tagged (by omega))

theorem pred_after_provider (ready : Ready tage ip)
    (fixed : SameHistory (tage.lastBranchResult ip taken stream).1 tage)
    (present : tage.providerComp ip ≠ -1) :
    ((tage.lastBranchResult ip taken stream).1.slotEntry ip (tage.providerComp ip)).pred =
      (tage.slotEntry ip (tage.providerComp ip)).pred.addAssign (outcomeStep taken) := by
  have tagged := providerComp_mem tage ip present
  have kept : tage.allocatedComponent ip taken stream.rand ≠ some (tage.providerComp ip) := by
    intro chosen
    have longer := (allocation_of_chosen tage ip taken stream ready _ chosen).longer
    rw [ready.provider] at longer
    omega
  have learns : Trained tage ip (tage.providerComp ip) := Or.inl rfl
  have trained : (tage.trainedSlot ip taken (tage.providerComp ip)).pred =
      (tage.slotEntry ip (tage.providerComp ip)).pred.addAssign (outcomeStep taken) :=
    if_pos learns
  rw [slotEntry_after ready fixed tagged, ageEntry_pred, updatedSlot, if_neg kept]
  split
  · exact trained
  · exact trained

end ConstantHistory

/-! ### The branches that can still be predicted wrong -/

def bimodalEntry (tage : Tage) (ip : Address) : Fwcounter 2 :=
  tage.bimodalTable.get (ip.toNat % bimodalEntries : Nat)

def providerCounter (tage : Tage) (ip : Address) : Fwcounter 3 :=
  (tage.slotEntry ip (tage.providerComp ip)).pred

def altpredTaken (tage : Tage) (ip : Address) : Bool :=
  if tage.altpredComp ip = -1 then predictsTaken (tage.bimodalEntry ip)
  else predictsTaken (tage.slotEntry ip (tage.altpredComp ip)).pred

def isWeak (counter : Fwcounter 3) : Prop :=
  counter.value = weaklyNotTaken ∨ counter.value = weaklyTaken

instance (counter : Fwcounter 3) : Decidable (isWeak counter) := inferInstanceAs (Decidable (_ ∨ _))

/-- A provider on the right side is overruled at most once, while it is weak.
Any other counter needs its lag, and one more branch for an allocation that
falls in between. -/
def backlog (tage : Tage) (ip : Address) (taken : Bool) : Nat :=
  if tage.providerComp ip = -1 then
    if lag taken (tage.bimodalEntry ip) = 0 then 0 else lag taken (tage.bimodalEntry ip) + 1
  else if lag taken (tage.providerCounter ip) = 0 then
    if isWeak (tage.providerCounter ip) ∧ tage.altpredTaken ip ≠ taken then 1 else 0
  else lag taken (tage.providerCounter ip) + 1

theorem backlog_le (tage : Tage) (ip : Address) (taken : Bool) : tage.backlog ip taken ≤ 5 := by
  have bimodal := lag_le taken (tage.bimodalEntry ip) (by decide)
  have provider := lag_le taken (tage.providerCounter ip) (by decide)
  unfold backlog
  split
  · split <;> omega
  · split
    · split <;> omega
    · omega

theorem predictBranch_eq (tage : Tage) (ip : Address) :
    (tage.predictBranch ip).1 =
      if tage.providerComp ip = -1 then predictsTaken (tage.bimodalEntry ip)
      else if tage.usesAltpred (tage.slotEntry ip (tage.providerComp ip)) then
        tage.altpredTaken ip
      else predictsTaken (tage.providerCounter ip) :=
  predictBranch_prediction tage ip

theorem isWeak_of_usesAltpred {tage : Tage} {entry : TageEntry}
    (overruled : tage.usesAltpred entry = true) : isWeak entry.pred := by
  unfold usesAltpred at overruled
  simp only [Bool.and_eq_true, Bool.or_eq_true, beq_iff_eq] at overruled
  exact overruled.1.1

theorem predictBranch_of_backlog_zero (tage : Tage) (ip : Address) (taken : Bool)
    (settled : tage.backlog ip taken = 0) : (tage.predictBranch ip).1 = taken := by
  rw [predictBranch_eq]
  unfold backlog at settled
  by_cases absent : tage.providerComp ip = -1
  · rw [if_pos absent] at settled ⊢
    by_cases right : lag taken (tage.bimodalEntry ip) = 0
    · exact (lag_eq_zero_iff _ _).mp right
    · rw [if_neg right] at settled
      cases settled
  · rw [if_neg absent] at settled ⊢
    by_cases right : lag taken (tage.providerCounter ip) = 0
    · rw [if_pos right] at settled
      by_cases overruled : tage.usesAltpred (tage.slotEntry ip (tage.providerComp ip)) = true
      · rw [if_pos overruled]
        by_contra wrong
        rw [if_pos ⟨isWeak_of_usesAltpred overruled, wrong⟩] at settled
        cases settled
      · rw [if_neg overruled]
        exact (lag_eq_zero_iff _ _).mp right
    · rw [if_neg right] at settled
      cases settled

private theorem lag_weak (counter : Fwcounter 3) (taken : Bool)
    (installed : counter.value = weak taken) : lag taken counter = 0 := by
  unfold lag BaseFwcounter.maximum
  rw [installed]
  cases taken <;> decide

private theorem not_isWeak_addAssign (counter : Fwcounter 3) (taken : Bool)
    (right : lag taken counter = 0) : ¬isWeak (counter.addAssign (outcomeStep taken)) := by
  have atLeast := counter.atLeast
  have atMost := counter.atMost
  unfold lag BaseFwcounter.maximum at right
  unfold isWeak outcomeStep weaklyTaken weaklyNotTaken
  cases taken with
  | true =>
      simp only [if_true, BaseFwcounter.addAssign_one_value] at right ⊢
      omega
  | false =>
      simp only [Bool.false_eq_true, if_false, BaseFwcounter.addAssign_neg_one,
        BaseFwcounter.subAssign_one_value] at right ⊢
      omega

section BacklogStep

variable {tage : Tage} {ip : Address} {taken : Bool} {stream : Rand}

private theorem bimodalEntry_after (taken : Bool) (stream : Rand) (ready : Ready tage ip) :
    (tage.lastBranchResult ip taken stream).1.bimodalEntry ip =
      if tage.providerComp ip = -1 then (tage.bimodalEntry ip).addAssign (outcomeStep taken)
      else tage.bimodalEntry ip := by
  have positive : 0 < bimodalEntries := by decide
  have within : CArray.InBounds bimodalEntries (ip.toNat % bimodalEntries : Nat) :=
    ⟨by omega, by exact_mod_cast Nat.mod_lt ip.toNat positive⟩
  unfold bimodalEntry
  rw [bimodal_lastBranchResult tage ip taken stream ready _ within]
  simp only [and_true]

theorem backlog_kept (ready : Ready tage ip)
    (fixed : SameHistory (tage.lastBranchResult ip taken stream).1 tage)
    (nothing : tage.allocatedComponent ip taken stream.rand = none) :
    (tage.lastBranchResult ip taken stream).1.backlog ip taken ≤ tage.backlog ip taken - 1 := by
  obtain ⟨provider, _altpred⟩ := search_kept ready fixed nothing
  by_cases absent : tage.providerComp ip = -1
  · have learned := lag_addAssign taken (tage.bimodalEntry ip) (by decide)
    have after := bimodalEntry_after taken stream ready
    rw [if_pos absent] at after
    unfold backlog
    rw [provider, if_pos absent, if_pos absent, after, learned]
    split <;> split <;> omega
  · have learned := lag_addAssign taken (tage.providerCounter ip) (by decide)
    have after : (tage.lastBranchResult ip taken stream).1.providerCounter ip =
        (tage.providerCounter ip).addAssign (outcomeStep taken) := by
      unfold providerCounter
      rw [provider, pred_after_provider ready fixed absent]
    unfold backlog
    rw [provider, if_neg absent, if_neg absent, after, learned]
    by_cases right : lag taken (tage.providerCounter ip) = 0
    · have strong := not_isWeak_addAssign (tage.providerCounter ip) taken right
      rw [if_pos (by omega), if_neg (fun both => strong both.1)]
      exact Nat.zero_le _
    · rw [if_neg right]
      split
      · split <;> omega
      · omega

theorem backlog_moved (ready : Ready tage ip)
    (fixed : SameHistory (tage.lastBranchResult ip taken stream).1 tage)
    {allocated : Int} (chosen : tage.allocatedComponent ip taken stream.rand = some allocated) :
    (tage.lastBranchResult ip taken stream).1.backlog ip taken ≤ tage.backlog ip taken - 1 := by
  obtain ⟨provider, altpred⟩ := search_moved ready fixed chosen
  have effect := allocation_of_chosen tage ip taken stream ready allocated chosen
  have range := (mem_components allocated).mp effect.tagged
  have installed : lag taken
      ((tage.lastBranchResult ip taken stream).1.providerCounter ip) = 0 := by
    apply lag_weak
    unfold providerCounter slotEntry
    rw [provider, fixed.compIndex]
    exact effect.pred
  have unsettled : tage.backlog ip taken ≠ 0 := by
    intro settled
    apply effect.mispredicted
    rw [ready.ultimate]
    exact predictBranch_of_backlog_zero tage ip taken settled
  have after : (tage.lastBranchResult ip taken stream).1.backlog ip taken =
      if isWeak ((tage.lastBranchResult ip taken stream).1.providerCounter ip) ∧
        (tage.lastBranchResult ip taken stream).1.altpredTaken ip ≠ taken then 1 else 0 := by
    unfold backlog
    rw [provider, if_neg (by omega), if_pos installed]
  rw [after]
  by_cases last : tage.backlog ip taken = 1
  · have present : tage.providerComp ip ≠ -1 := by
      intro absent
      unfold backlog at last
      rw [if_pos absent] at last
      split at last <;> omega
    have right : lag taken (tage.providerCounter ip) = 0 := by
      by_contra wrong
      unfold backlog at last
      rw [if_neg present, if_neg wrong] at last
      omega
    have learned : (tage.lastBranchResult ip taken stream).1.altpredTaken ip = taken := by
      unfold altpredTaken
      rw [altpred, if_neg present, pred_after_provider ready fixed present, ← lag_eq_zero_iff,
        lag_addAssign taken _ (by decide)]
      unfold providerCounter at right
      omega
    rw [if_neg (fun both => both.2 learned)]
    exact Nat.zero_le _
  · split <;> omega

end BacklogStep

theorem backlog_branch (state : Tage × Rand) (ip : Address) (taken : Bool)
    (fixed : SameHistory (predictor.branch state (ip, taken)).1 state.1) :
    (predictor.branch state (ip, taken)).1.backlog ip taken ≤ state.1.backlog ip taken - 1 := by
  have ready := ready_predictBranch state.1 ip
  have unchanged : (state.1.predictBranch ip).2.backlog ip taken = state.1.backlog ip taken := by
    obtain ⟨info, frame⟩ := predictBranch_frame state.1 ip
    rw [frame]
    rfl
  have same : SameHistory (predictor.branch state (ip, taken)).1 (state.1.predictBranch ip).2 := by
    obtain ⟨info, frame⟩ := predictBranch_frame state.1 ip
    rw [frame]
    exact ⟨fixed.ghist, fixed.phist⟩
  rw [← unchanged]
  cases chosen : (state.1.predictBranch ip).2.allocatedComponent ip taken state.2.rand with
  | none => exact backlog_kept ready same chosen
  | some allocated => exact backlog_moved ready same chosen

/-- After the history has become constant, every branch lowers the backlog. -/
theorem backlog_feed (state : Tage × Rand) (ip : Address) (taken : Bool) (count : Nat) :
    (predictor.feed state (List.replicate (ghistBits + count) (ip, taken))).1.backlog ip taken ≤
      5 - count := by
  induction count with
  | zero => exact backlog_le _ ip taken
  | succ count ih =>
      have fixed := sameHistory_branch state ip taken (ghistBits + count) (Nat.le_add_right _ _)
      rw [PredictorModule.feed_replicate_succ] at fixed
      have lower := backlog_branch _ ip taken fixed
      rw [← Nat.add_assoc, PredictorModule.feed_replicate_succ]
      omega

theorem constantPrediction_settles (state : Tage × Rand) (ip : Address) (taken : Bool)
    (count : Nat) (long : ghistBits + 5 ≤ count) :
    predictor.constantPrediction state (ip, taken) count = taken := by
  obtain ⟨further, split⟩ := Nat.exists_eq_add_of_le long
  have settled : (predictor.feed state (List.replicate count (ip, taken))).1.backlog ip taken = 0 := by
    have bound := backlog_feed state ip taken (5 + further)
    rw [← Nat.add_assoc, ← split] at bound
    omega
  exact predictBranch_of_backlog_zero _ ip taken settled

end ChampSim.Tage

/-
What the alternate prediction of TAGE is: the prediction of the longest match
that is left when the provider does not match.
-/

import ChampSim.Tage.Effect

set_option autoImplicit false

namespace ChampSim.Tage

open Msl Branch

/-- The same tables, but for the tag of the entry that provides for `ip`. -/
def retagProvider (tage : Tage) (ip : Address) (tag : BitVec 32) : Tage :=
  tage.modifyEntry (tage.providerComp ip) (tage.compIndex ip (tage.providerComp ip))
    (fun entry => { entry with tag })

/-- What the longest match predicts: `provider_comp_pred`, or the bimodal
prediction when nothing matches. -/
def longestMatchPrediction (tage : Tage) (ip : Address) : Bool :=
  providerPrediction (tage.predictBranch ip).2.branchInfo

section Retagged

variable {tage : Tage} {ip : Address} {tag : BitVec 32}

theorem retagProvider_sameHistory : SameHistory (tage.retagProvider ip tag) tage :=
  (modifyEntry_sameFrame _ _ _ _).sameHistory

theorem slotEntry_retagProvider (component : Int) (tagged : component ∈ components) :
    (tage.retagProvider ip tag).slotEntry ip component =
      if component = tage.providerComp ip then { tage.slotEntry ip component with tag }
      else tage.slotEntry ip component := by
  unfold slotEntry
  rw [retagProvider_sameHistory.compIndex, retagProvider,
    entry_modifyEntry _ _ _ _ _ _ (slot_compIndex tage ip component tagged)]
  by_cases same : component = tage.providerComp ip
  · subst same
    rw [if_pos ⟨rfl, rfl⟩, if_pos rfl]
  · rw [if_neg (fun both => same both.1), if_neg same]

theorem tagMatches_retagProvider (other : tag ≠ tage.tagHash ip (tage.providerComp ip))
    (component : Int) (tagged : component ∈ components) :
    (tage.retagProvider ip tag).tagMatches ip component =
      if component = tage.providerComp ip then false else tage.tagMatches ip component := by
  unfold tagMatches
  rw [slotEntry_retagProvider component tagged, retagProvider_sameHistory.tagHash]
  by_cases same : component = tage.providerComp ip
  · subst same
    rw [if_pos rfl, if_pos rfl]
    exact beq_eq_false_iff_ne.mpr other
  · rw [if_neg same, if_neg same]

/-- Without the provider the alternate component is the longest match. -/
theorem providerComp_retagProvider (present : tage.providerComp ip ≠ -1)
    (other : tag ≠ tage.tagHash ip (tage.providerComp ip)) :
    (tage.retagProvider ip tag).providerComp ip = tage.altpredComp ip := by
  have provider := providerComp_longest tage ip
  have matched := tagMatches_retagProvider other
  have unmatched : ∀ component ∈ components, component < numComponents →
      (component < tage.providerComp ip → tage.tagMatches ip component = false) →
        (tage.retagProvider ip tag).tagMatches ip component = false := by
    intro component tagged within below
    rw [matched component tagged]
    by_cases same : component = tage.providerComp ip
    · rw [if_pos same]
    · rw [if_neg same]
      rcases provider with ⟨absent, _none⟩ | ⟨_member, _inside, _hit, last⟩
      · exact absurd absent present
      · rcases Int.lt_or_gt_of_ne same with before | after
        · exact below before
        · exact last component tagged after within
  refine (providerComp_longest (tage.retagProvider ip tag) ip).unique ?_
  rcases altpredComp_longest tage ip with ⟨absent, none⟩ | ⟨member, below, hit, last⟩
  · refine Or.inl ⟨absent, ?_⟩
    intro component tagged within
    exact unmatched component tagged within (none component tagged)
  · refine Or.inr ⟨member, ?_, ?_, ?_⟩
    · exact Int.lt_trans below (provider.found_mem present).2.1
    · rw [matched _ member, if_neg (Int.ne_of_lt below)]
      exact hit
    · intro component tagged above within
      exact unmatched component tagged within (last component tagged above)

end Retagged

/-- The alternate prediction that an update uses is what the longest match would
predict had the provider not matched, and a prediction changes nothing but the
notes that it saves for the update. -/
theorem predictBranch_altpred (tage : Tage) (ip : Address) :
    (∀ tag : BitVec 32, tage.providerComp ip ≠ -1 →
      tag ≠ tage.tagHash ip (tage.providerComp ip) →
      altpredPrediction (tage.predictBranch ip).2.branchInfo =
        (tage.retagProvider ip tag).longestMatchPrediction ip) ∧
      ∃ info, (tage.predictBranch ip).2 = { tage with branchInfo := info } := by
  refine ⟨?_, predictBranch_frame tage ip⟩
  intro tag present other
  have saved := predictBranch_info tage ip
  have left := predictBranch_info (tage.retagProvider ip tag) ip
  have longest := providerComp_retagProvider present other
  have bimodal : (tage.retagProvider ip tag).bimodalTable = tage.bimodalTable := rfl
  unfold longestMatchPrediction altpredPrediction providerPrediction bimodalPrediction
  rw [saved.altpred, left.provider, longest, saved.bimodal, left.bimodal, bimodal]
  by_cases absent : tage.altpredComp ip = -1
  · rw [if_pos absent, if_pos absent]
  · obtain ⟨tagged, below⟩ := altpredComp_mem tage ip absent
    have matching : (tage.retagProvider ip tag).providerComp ip ≠ -1 := by
      rw [longest]
      exact absent
    rw [if_neg absent, if_neg absent, saved.altpredPred absent, left.providerPred matching, longest,
      slotEntry_retagProvider _ tagged, if_neg (Int.ne_of_lt below)]

theorem predictBranch_altpred_fresh :
    altpredPrediction ((fresh default).predictBranch 0).2.branchInfo =
      ((fresh default).retagProvider 0 1).longestMatchPrediction 0 :=
  (predictBranch_altpred (fresh default) 0).1 1 (by decide +kernel) (by decide +kernel)

end ChampSim.Tage

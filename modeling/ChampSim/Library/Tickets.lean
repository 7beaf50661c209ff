/-
Numbered requests that are asked about until they are granted.

Each request gets a number when it is issued and is held until a question about
it is granted. The questions about an active request are those that were
refused, and the last one if it is held no more.
-/

import Mathlib.Data.List.Nodup
import Mathlib.Data.List.Range

set_option autoImplicit false

namespace ChampSim

structure Tally where
  issued : Nat := 0
  held : List Nat := []
  asked : List Nat := []
  refused : List Nat := []

namespace Tally

/-- Only active requests are asked about, each as often as it was refused, and
once more if it was granted. -/
structure Balanced (active : Nat → Bool) (tally : Tally) : Prop where
  distinct : tally.held.Nodup
  bounded : ∀ number ∈ tally.held, number < tally.issued
  balance : ∀ number < tally.issued, tally.asked.count number =
    if active number then
      tally.refused.count number + (if number ∈ tally.held then 0 else 1)
    else 0
  unissued : ∀ number, tally.issued ≤ number → number ∉ tally.asked ∧ number ∉ tally.refused

variable {active : Nat → Bool} {tally : Tally}

theorem balanced_empty (active : Nat → Bool) : Balanced active {} := by
  refine ⟨List.nodup_nil, ?_, ?_, ?_⟩
  · intro number member
    cases member
  · intro number below
    exact absurd below (Nat.not_lt_zero number)
  · intro number _above
    exact ⟨List.not_mem_nil, List.not_mem_nil⟩

theorem Balanced.reorder (balanced : Balanced active tally) {held : List Nat}
    (same : held.Perm tally.held) : Balanced active { tally with held } := by
  refine ⟨same.nodup_iff.mpr balanced.distinct, ?_, ?_, balanced.unissued⟩
  · intro number member
    exact balanced.bounded number (same.mem_iff.mp member)
  · intro number below
    rw [balanced.balance number below]
    simp only [same.mem_iff]

theorem Balanced.issue (balanced : Balanced active tally) (count : Nat) {later : Nat → Bool}
    (agree : ∀ number < tally.issued, later number = active number) :
    Balanced later { tally with
      issued := tally.issued + count
      held := tally.held ++ List.range' tally.issued count } := by
  refine ⟨?_, ?_, ?_, ?_⟩
  · refine List.nodup_append'.mpr ⟨balanced.distinct, List.nodup_range', ?_⟩
    intro number before new
    have small := balanced.bounded number before
    have large := (List.mem_range'_1.mp new).1
    omega
  · intro number member
    change number < tally.issued + count
    rcases List.mem_append.mp member with before | new
    · have small := balanced.bounded number before
      omega
    · exact (List.mem_range'_1.mp new).2
  · intro number below
    dsimp only at below ⊢
    by_cases old : number < tally.issued
    · have outside : number ∉ List.range' tally.issued count := by
        intro new
        have large := (List.mem_range'_1.mp new).1
        omega
      rw [balanced.balance number old, agree number old]
      simp only [List.mem_append, outside, or_false]
    · have fresh := balanced.unissued number (Nat.not_lt.mp old)
      have new : number ∈ List.range' tally.issued count :=
        List.mem_range'_1.mpr ⟨Nat.not_lt.mp old, below⟩
      rw [List.count_eq_zero_of_not_mem fresh.1, List.count_eq_zero_of_not_mem fresh.2,
        if_pos (List.mem_append_right _ new), Nat.add_zero, ite_self]
  · intro number above
    exact balanced.unissued number (Nat.le_trans (Nat.le_add_right _ _) above)

/-- Some of the held requests are asked about, and those that are refused stay held. -/
theorem Balanced.ask (balanced : Balanced active tally) {checked granted refused others : List Nat}
    (parts : tally.held.Perm (checked ++ others)) (answers : checked.Perm (granted ++ refused)) :
    Balanced active { tally with
      held := refused ++ others
      asked := tally.asked ++ checked.filter active
      refused := tally.refused ++ refused } := by
  have split : tally.held.Perm (granted ++ (refused ++ others)) := by
    refine parts.trans ((answers.append_right others).trans ?_)
    rw [List.append_assoc]
  have distinct := split.nodup_iff.mp balanced.distinct
  obtain ⟨-, kept, apart⟩ := List.nodup_append'.mp distinct
  obtain ⟨refusedOnce, -, separate⟩ := List.nodup_append'.mp kept
  have checkedOnce : checked.Nodup :=
    (List.nodup_append'.mp (parts.nodup_iff.mp balanced.distinct)).1
  refine ⟨kept, ?_, ?_, ?_⟩
  · intro number member
    exact balanced.bounded number (split.mem_iff.mpr (List.mem_append_right _ member))
  · intro number below
    dsimp only
    have before := balanced.balance number below
    have inChecked : number ∈ checked ↔ number ∈ granted ∨ number ∈ refused := by
      rw [answers.mem_iff, List.mem_append]
    have inHeld : number ∈ tally.held ↔ number ∈ checked ∨ number ∈ others := by
      rw [parts.mem_iff, List.mem_append]
    have notOther : number ∈ checked → number ∉ others := by
      intro asked other
      rcases inChecked.mp asked with wasGranted | wasRefused
      · exact apart wasGranted (List.mem_append_right _ other)
      · exact separate wasRefused other
    have notBoth : number ∈ granted → number ∉ refused := fun wasGranted wasRefused =>
      apart wasGranted (List.mem_append_left _ wasRefused)
    rw [List.count_append, List.count_append, before, refusedOnce.count,
      (checkedOnce.filter _).count]
    simp only [List.mem_filter, List.mem_append, inHeld]
    by_cases runs : active number = true
    · by_cases wasGranted : number ∈ granted
      · have asked := inChecked.mpr (Or.inl wasGranted)
        simp [runs, asked, notOther asked, notBoth wasGranted]
      · by_cases wasRefused : number ∈ refused
        · have asked := inChecked.mpr (Or.inr wasRefused)
          simp [runs, asked, wasRefused]
        · have unasked : number ∉ checked := fun asked =>
            (inChecked.mp asked).elim wasGranted wasRefused
          simp [runs, unasked, wasRefused]
    · simp [runs]
  · intro number above
    obtain ⟨unasked, unrefused⟩ := balanced.unissued number above
    have absent : number ∉ tally.held := fun member =>
      Nat.not_lt.mpr above (balanced.bounded number member)
    have unchecked : number ∉ checked := fun member =>
      absent (parts.mem_iff.mpr (List.mem_append_left _ member))
    constructor
    · intro member
      rcases List.mem_append.mp member with before | now
      · exact unasked before
      · exact unchecked (List.mem_filter.mp now).1
    · intro member
      rcases List.mem_append.mp member with before | now
      · exact unrefused before
      · exact unchecked (answers.mem_iff.mpr (List.mem_append_right _ now))

end Tally

end ChampSim

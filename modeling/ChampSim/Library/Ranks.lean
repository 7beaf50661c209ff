/-
Ranks of the places of a store: each place has a rank of its own below their
number. A place that is used takes the rank 0, and those that were before it age.
-/

import Mathlib.Data.Fintype.EquivFin
import Mathlib.Data.List.OfFn
import Mathlib.Data.List.Perm.Subperm

set_option autoImplicit false

namespace ChampSim.Ranks

variable {size : Nat}

/-- Ranks that are a permutation of the numbers below the size. -/
structure IsRanking (rank : Fin size → Nat) : Prop where
  below : ∀ place, rank place < size
  injective : Function.Injective rank

/-- The ranks after the aging of those before the used place. -/
def aged (rank : Fin size → Nat) (used place : Fin size) : Nat :=
  if rank place < rank used then rank place + 1 else rank place

def promote (rank : Fin size → Nat) (used : Fin size) : Fin size → Nat :=
  Function.update (aged rank used) used 0

variable {rank : Fin size → Nat}

theorem id_isRanking : IsRanking (fun place : Fin size => place.val) where
  below := fun place => place.isLt
  injective := Fin.val_injective

theorem IsRanking.aged_lt (ranking : IsRanking rank) (used place : Fin size) :
    aged rank used place < size := by
  have usedBelow := ranking.below used
  have placeBelow := ranking.below place
  unfold aged
  split
  · omega
  · exact placeBelow

theorem aged_pos {used place : Fin size} (ranking : IsRanking rank) (other : place ≠ used) :
    0 < aged rank used place := by
  have different : rank place ≠ rank used := fun same => other (ranking.injective same)
  unfold aged
  split
  · exact Nat.succ_pos _
  · omega

theorem IsRanking.promote (ranking : IsRanking rank) (used : Fin size) :
    IsRanking (promote rank used) := by
  constructor
  · intro place
    unfold Ranks.promote
    by_cases same : place = used
    · rw [same, Function.update_self]
      exact Nat.zero_lt_of_lt used.isLt
    · rw [Function.update_of_ne same]
      exact ranking.aged_lt used place
  · intro first second alike
    unfold Ranks.promote at alike
    by_cases firstUsed : first = used
    · by_cases secondUsed : second = used
      · exact firstUsed.trans secondUsed.symm
      · rw [firstUsed, Function.update_self, Function.update_of_ne secondUsed] at alike
        have positive := aged_pos ranking secondUsed
        omega
    · by_cases secondUsed : second = used
      · rw [secondUsed, Function.update_self, Function.update_of_ne firstUsed] at alike
        have positive := aged_pos ranking firstUsed
        omega
      · rw [Function.update_of_ne firstUsed, Function.update_of_ne secondUsed] at alike
        have firstOther : rank first ≠ rank used := fun same => firstUsed (ranking.injective same)
        have secondOther : rank second ≠ rank used :=
          fun same => secondUsed (ranking.injective same)
        apply ranking.injective
        unfold aged at alike
        split at alike <;> split at alike <;> omega

theorem IsRanking.exists_rank (ranking : IsRanking rank) (wanted : Nat) (within : wanted < size) :
    ∃ place, rank place = wanted := by
  have injective : Function.Injective (fun place : Fin size => (⟨rank place, ranking.below place⟩ :
      Fin size)) := fun first second same => ranking.injective (congrArg Fin.val same)
  obtain ⟨place, taken⟩ := (Finite.injective_iff_surjective.mp injective) ⟨wanted, within⟩
  exact ⟨place, congrArg Fin.val taken⟩

theorem IsRanking.perm_range (ranking : IsRanking rank) :
    (List.ofFn rank).Perm (List.range size) := by
  have distinct : (List.ofFn rank).Nodup := List.nodup_ofFn.mpr ranking.injective
  have within : List.ofFn rank ⊆ List.range size := by
    intro value member
    obtain ⟨place, same⟩ := (List.mem_ofFn' rank value).mp member
    exact List.mem_range.mpr (same ▸ ranking.below place)
  apply (List.subperm_of_subset distinct within).perm_of_length_le
  rw [List.length_ofFn, List.length_range]

end ChampSim.Ranks

/-
Positions of a list as iterators: the split of a list at a position that holds
a value, and the swap of the values at two positions.
-/

import Mathlib.Data.List.Perm.Basic

set_option autoImplicit false

namespace ChampSim.Positions

variable {Value : Type}

/-- The list around a position, and what an assignment through it leaves. -/
theorem split_at (values : List Value) (position : Nat) (value : Value)
    (read : values[position]? = some value) :
    ∃ before after, values = before ++ value :: after ∧
      ∀ other, values.set position other = before ++ other :: after := by
  obtain ⟨within, same⟩ := List.getElem?_eq_some_iff.mp read
  refine ⟨values.take position, values.drop (position + 1), ?_, ?_⟩
  · rw [← same, List.getElem_cons_drop, List.take_append_drop]
  · intro other
    rw [List.set_eq_take_append_cons_drop, if_pos within]

theorem findIdx_split (property : Value → Bool) (before after : List Value) (value : Value)
    (absent : ∀ other ∈ before, property other = false) (holds : property value = true) :
    (before ++ value :: after).findIdx property = before.length := by
  induction before with
  | nil => simp [List.findIdx_cons, holds]
  | cons other rest ih =>
      have tail := ih (fun later member => absent later (List.mem_cons_of_mem other member))
      rw [List.cons_append, List.findIdx_cons, absent other List.mem_cons_self, tail]
      rfl

/-- `std::iter_swap`, unless an iterator is past the end. -/
def swapAt (values : List Value) (left right : Nat) : Option (List Value) :=
  match values[left]?, values[right]? with
  | some first, some second => some ((values.set left second).set right first)
  | _, _ => none

theorem swapAt_self (before after : List Value) (value : Value) :
    swapAt (before ++ value :: after) before.length before.length =
      some (before ++ value :: after) := by
  simp [swapAt]

theorem swapAt_split (before middle after : List Value) (left right : Value) :
    swapAt (before ++ left :: middle ++ right :: after) (before ++ left :: middle).length
      before.length = some (before ++ right :: (middle ++ left :: after)) := by
  have rightRead : (before ++ left :: middle ++ right :: after)[(before ++ left :: middle).length]? =
      some right := by simp
  have leftRead : (before ++ left :: middle ++ right :: after)[before.length]? = some left := by simp
  unfold swapAt
  rw [rightRead, leftRead]
  simp

theorem swapAt_perm (values swapped : List Value) (left right : Nat)
    (ran : swapAt values left right = some swapped) : swapped.Perm values := by
  unfold swapAt at ran
  split at ran
  · rename_i first second leftRead rightRead
    cases ran
    obtain ⟨leftWithin, leftSame⟩ := List.getElem?_eq_some_iff.mp leftRead
    obtain ⟨rightWithin, rightSame⟩ := List.getElem?_eq_some_iff.mp rightRead
    have swap := List.set_set_perm leftWithin rightWithin
    rw [leftSame, rightSame] at swap
    exact swap
  · cases ran

end ChampSim.Positions

/-
The parity of the positions below a bound that a condition selects, and the
parity of a grid of positions by rows and by columns.
-/

import Mathlib.Data.List.Basic

set_option autoImplicit false

namespace ChampSim.Parity

def parity (bound : Nat) (selected : Nat → Bool) : Bool :=
  (List.range bound).countP selected % 2 == 1

theorem parity_zero (selected : Nat → Bool) : parity 0 selected = false := rfl

theorem parity_succ (bound : Nat) (selected : Nat → Bool) :
    parity (bound + 1) selected = (parity bound selected ^^ selected bound) := by
  unfold parity
  rw [List.range_succ, List.countP_append, List.countP_singleton]
  generalize (List.range bound).countP selected = count
  cases selected bound with
  | false =>
      rw [Bool.xor_false]
      rfl
  | true =>
      rw [Bool.xor_true, if_pos rfl]
      rcases Nat.mod_two_eq_zero_or_one count with even | odd
      · rw [Nat.add_mod, even]
        rfl
      · rw [Nat.add_mod, odd]
        rfl

theorem parity_congr {bound : Nat} {left right : Nat → Bool}
    (same : ∀ position, position < bound → left position = right position) :
    parity bound left = parity bound right := by
  unfold parity
  rw [List.countP_congr]
  intro position member
  rw [same position (List.mem_range.mp member)]

theorem parity_none {bound : Nat} {selected : Nat → Bool}
    (none : ∀ position, position < bound → selected position = false) :
    parity bound selected = false := by
  induction bound with
  | zero => exact parity_zero selected
  | succ bound ih =>
      rw [parity_succ, ih (fun position within => none position (by omega)),
        none bound (by omega), Bool.xor_false]

theorem parity_xor (bound : Nat) (left right : Nat → Bool) :
    parity bound (fun position => left position ^^ right position) =
      (parity bound left ^^ parity bound right) := by
  induction bound with
  | zero => rfl
  | succ bound ih =>
      rw [parity_succ, parity_succ, parity_succ, ih, Bool.xor_assoc, Bool.xor_assoc,
        Bool.xor_left_comm (parity bound right)]

theorem parity_add (bound more : Nat) (selected : Nat → Bool) :
    parity (bound + more) selected =
      (parity bound selected ^^ parity more (fun position => selected (bound + position))) := by
  induction more with
  | zero => rw [Nat.add_zero, parity_zero, Bool.xor_false]
  | succ more ih => rw [← Nat.add_assoc, parity_succ, parity_succ, ih, Bool.xor_assoc]

theorem parity_extend {bound wider : Nat} {selected : Nat → Bool} (within : bound ≤ wider)
    (none : ∀ position, bound ≤ position → selected position = false) :
    parity wider selected = parity bound selected := by
  obtain ⟨more, rfl⟩ := Nat.exists_eq_add_of_le within
  rw [parity_add, parity_none (fun position _below => none _ (Nat.le_add_right _ _)),
    Bool.xor_false]

/-! ### Grids -/

theorem parity_mul (rows columns : Nat) (selected : Nat → Bool) :
    parity (rows * columns) selected =
      parity rows (fun row => parity columns (fun column => selected (row * columns + column))) := by
  induction rows with
  | zero => rw [Nat.zero_mul, parity_zero, parity_zero]
  | succ rows ih => rw [Nat.succ_mul, parity_add, parity_succ, ih]

theorem parity_comm (rows columns : Nat) (selected : Nat → Nat → Bool) :
    parity rows (fun row => parity columns (fun column => selected row column)) =
      parity columns (fun column => parity rows (fun row => selected row column)) := by
  induction rows with
  | zero => exact (parity_none (fun _ _ => rfl)).symm
  | succ rows ih =>
      have split : ∀ column, parity (rows + 1) (fun row => selected row column) =
          (parity rows (fun row => selected row column) ^^ selected rows column) :=
        fun column => parity_succ rows _
      rw [parity_succ, ih, ← parity_xor]
      exact (congrArg (parity columns) (funext split)).symm

theorem parity_single {bound chosen : Nat} (within : chosen < bound) (selected : Nat → Bool) :
    parity bound (fun position => selected position && decide (position = chosen)) =
      selected chosen := by
  have after : ∀ position, chosen + 1 ≤ position →
      (selected position && decide (position = chosen)) = false := by
    intro position later
    rw [decide_eq_false (by omega), Bool.and_false]
  have before : ∀ position, position < chosen →
      (selected position && decide (position = chosen)) = false := by
    intro position earlier
    rw [decide_eq_false (by omega), Bool.and_false]
  rw [parity_extend within after, parity_succ, parity_none before, decide_eq_true rfl,
    Bool.and_true, Bool.false_xor]

end ChampSim.Parity

/-
Fixed-size arrays under signed subscripts.

A subscript outside the array reads the default value and writes nothing. The
programs modelled over these arrays never use such a subscript, and prove so;
`InBounds` is the predicate they prove.
-/

import Mathlib.Algebra.BigOperators.Fin
import Mathlib.Data.Fin.Basic
import Mathlib.Tactic.Ring

set_option autoImplicit false

namespace ChampSim

structure CArray (size : Nat) (Cell : Type) where
  cells : Fin size → Cell

namespace CArray

variable {size rows columns : Nat} {Cell : Type}

def InBounds (size : Nat) (subscript : Int) : Prop :=
  0 ≤ subscript ∧ subscript < size

instance (size : Nat) (subscript : Int) : Decidable (InBounds size subscript) :=
  inferInstanceAs (Decidable (_ ∧ _))

def fill (size : Nat) (value : Cell) : CArray size Cell := ⟨fun _ => value⟩

instance [Inhabited Cell] : Inhabited (CArray size Cell) := ⟨fill size default⟩

def get [Inhabited Cell] (array : CArray size Cell) (subscript : Int) : Cell :=
  if within : InBounds size subscript then
    array.cells ⟨subscript.toNat, by unfold InBounds at within; omega⟩
  else default

def set (array : CArray size Cell) (subscript : Int) (value : Cell) : CArray size Cell :=
  ⟨fun index => if (index.val : Int) = subscript then value else array.cells index⟩

def map (array : CArray size Cell) (change : Cell → Cell) : CArray size Cell :=
  ⟨fun index => change (array.cells index)⟩

def assign (array : CArray size Cell) (index : Fin size) (value : Cell) : CArray size Cell :=
  ⟨Function.update array.cells index value⟩

@[simp] theorem cells_assign_self (array : CArray size Cell) (index : Fin size) (value : Cell) :
    (array.assign index value).cells index = value := by
  unfold assign
  exact Function.update_self index value array.cells

theorem cells_assign_other (array : CArray size Cell) {index other : Fin size}
    (different : other ≠ index) (value : Cell) :
    (array.assign index value).cells other = array.cells other := by
  unfold assign
  exact Function.update_of_ne different value array.cells

theorem assign_assign (array : CArray size Cell) (index : Fin size) (value last : Cell) :
    (array.assign index value).assign index last = array.assign index last := by
  unfold assign
  exact congrArg CArray.mk (Function.update_idem value last array.cells)

theorem assign_self (array : CArray size Cell) (index : Fin size) :
    array.assign index (array.cells index) = array := by
  unfold assign
  rw [Function.update_eq_self]

/-- An assignment changes a sum over the cells by its old and its new value. -/
theorem sum_assign (weight : Cell → Nat) (array : CArray size Cell) (index : Fin size)
    (value : Cell) :
    (∑ place, weight ((array.assign index value).cells place)) + weight (array.cells index) =
      (∑ place, weight (array.cells place)) + weight value := by
  have others : ∑ place ∈ Finset.univ.erase index, weight ((array.assign index value).cells place) =
      ∑ place ∈ Finset.univ.erase index, weight (array.cells place) :=
    Finset.sum_congr rfl (fun place member =>
      congrArg weight (cells_assign_other array (Finset.ne_of_mem_erase member) value))
  have before : weight (array.cells index) +
        ∑ place ∈ Finset.univ.erase index, weight (array.cells place) =
      ∑ place, weight (array.cells place) :=
    Finset.add_sum_erase Finset.univ (fun place => weight (array.cells place))
      (Finset.mem_univ index)
  have after : weight ((array.assign index value).cells index) +
        ∑ place ∈ Finset.univ.erase index, weight ((array.assign index value).cells place) =
      ∑ place, weight ((array.assign index value).cells place) :=
    Finset.add_sum_erase Finset.univ
      (fun place => weight ((array.assign index value).cells place)) (Finset.mem_univ index)
  rw [cells_assign_self, others] at after
  omega

section OneDimension

variable [Inhabited Cell]

theorem get_set_same (array : CArray size Cell) (subscript : Int) (value : Cell)
    (within : InBounds size subscript) :
    (array.set subscript value).get subscript = value := by
  unfold get set
  rw [dif_pos within]
  have same : ((subscript.toNat : Nat) : Int) = subscript := Int.toNat_of_nonneg within.1
  simp only [same, if_true]

theorem get_set_other (array : CArray size Cell) (subscript other : Int) (value : Cell)
    (different : other ≠ subscript) :
    (array.set subscript value).get other = array.get other := by
  unfold get set
  by_cases within : InBounds size other
  · have same : ((other.toNat : Nat) : Int) = other := Int.toNat_of_nonneg within.1
    rw [dif_pos within, dif_pos within]
    simp only [same, if_neg different]
  · rw [dif_neg within, dif_neg within]

theorem get_set_congr {first second : CArray size Cell} {other : Int}
    (alike : first.get other = second.get other) (subscript : Int) (value : Cell) :
    (first.set subscript value).get other = (second.set subscript value).get other := by
  by_cases same : other = subscript
  · rw [same]
    by_cases within : InBounds size subscript
    · rw [get_set_same first subscript value within, get_set_same second subscript value within]
    · unfold get
      rw [dif_neg within, dif_neg within]
  · rw [get_set_other first subscript other value same,
      get_set_other second subscript other value same, alike]

theorem get_map (array : CArray size Cell) (change : Cell → Cell) (subscript : Int)
    (within : InBounds size subscript) :
    (array.map change).get subscript = change (array.get subscript) := by
  unfold get
  rw [dif_pos within, dif_pos within]
  rfl

theorem get_outside (array : CArray size Cell) (subscript : Int)
    (outside : ¬InBounds size subscript) : array.get subscript = default := by
  unfold get
  rw [dif_neg outside]

end OneDimension

/-! ### Arrays of arrays -/

section TwoDimensions

variable [Inhabited Cell]

def at2 (table : CArray rows (CArray columns Cell)) (row column : Int) : Cell :=
  (table.get row).get column

def set2 (table : CArray rows (CArray columns Cell)) (row column : Int) (value : Cell) :
    CArray rows (CArray columns Cell) :=
  table.set row ((table.get row).set column value)

def map2 (table : CArray rows (CArray columns Cell)) (change : Cell → Cell) :
    CArray rows (CArray columns Cell) :=
  table.map (fun row => row.map change)

def fill2 (rows columns : Nat) (value : Cell) : CArray rows (CArray columns Cell) :=
  fill rows (fill columns value)

theorem at2_set2_same (table : CArray rows (CArray columns Cell)) (row column : Int)
    (value : Cell) (rowWithin : InBounds rows row) (columnWithin : InBounds columns column) :
    (table.set2 row column value).at2 row column = value := by
  unfold at2 set2
  rw [get_set_same _ _ _ rowWithin, get_set_same _ _ _ columnWithin]

theorem at2_set2_other (table : CArray rows (CArray columns Cell))
    (row column otherRow otherColumn : Int) (value : Cell)
    (different : otherRow ≠ row ∨ otherColumn ≠ column) :
    (table.set2 row column value).at2 otherRow otherColumn = table.at2 otherRow otherColumn := by
  unfold at2 set2
  by_cases sameRow : otherRow = row
  · subst sameRow
    have columnDifferent : otherColumn ≠ column :=
      different.resolve_left (fun rowDifferent => rowDifferent rfl)
    by_cases rowWithin : InBounds rows otherRow
    · rw [get_set_same _ _ _ rowWithin, get_set_other _ _ _ _ columnDifferent]
    · rw [get_outside _ _ rowWithin, get_outside _ _ rowWithin]
  · rw [get_set_other _ _ _ _ sameRow]

/-- What an assignment leaves to read, when both positions are in the table. -/
theorem at2_set2 (table : CArray rows (CArray columns Cell)) (row column otherRow otherColumn : Nat)
    (value : Cell) (rowWithin : row < rows) (columnWithin : column < columns) :
    (table.set2 row column value).at2 otherRow otherColumn =
      if otherRow = row ∧ otherColumn = column then value else table.at2 otherRow otherColumn := by
  by_cases same : otherRow = row ∧ otherColumn = column
  · rw [if_pos same, same.1, same.2]
    apply at2_set2_same
    · exact ⟨by omega, by omega⟩
    · exact ⟨by omega, by omega⟩
  · rw [if_neg same]
    apply at2_set2_other
    omega

theorem at2_fill2 (row column : Int) :
    (fill2 rows columns (default : Cell)).at2 row column = default := by
  have rowDefault : (fill rows (fill columns (default : Cell))).get row = default := by
    unfold get
    split
    · rfl
    · rfl
  unfold at2 fill2
  rw [rowDefault]
  unfold get
  split
  · rfl
  · rfl

theorem at2_map2 (table : CArray rows (CArray columns Cell)) (change : Cell → Cell)
    (row column : Int) (rowWithin : InBounds rows row) (columnWithin : InBounds columns column) :
    (table.map2 change).at2 row column = change (table.at2 row column) := by
  unfold at2 map2
  rw [get_map _ _ _ rowWithin, get_map _ _ _ columnWithin]

/-! ### Counting -/

def countCells (table : CArray rows (CArray columns Cell)) (property : Cell → Bool) : Nat :=
  ∑ position : Fin rows × Fin columns,
    if property (table.at2 position.1.val position.2.val) then 1 else 0

/-- An assignment changes the count by the old and the new value of its cell. -/
theorem countCells_set2 (table : CArray rows (CArray columns Cell)) (row column : Nat)
    (value : Cell) (property : Cell → Bool) (rowWithin : row < rows)
    (columnWithin : column < columns) :
    (table.set2 row column value).countCells property +
        (if property (table.at2 row column) then 1 else 0) =
      table.countCells property + (if property value then 1 else 0) := by
  have here : ((⟨row, rowWithin⟩, ⟨column, columnWithin⟩) : Fin rows × Fin columns) ∈
      (Finset.univ : Finset (Fin rows × Fin columns)) := Finset.mem_univ _
  unfold countCells
  rw [← Finset.add_sum_erase _ _ here,
    ← Finset.add_sum_erase _
      (fun position => if property (table.at2 position.1.val position.2.val) then 1 else 0) here]
  have others : ∀ position ∈ Finset.univ.erase
      ((⟨row, rowWithin⟩, ⟨column, columnWithin⟩) : Fin rows × Fin columns),
      (table.set2 row column value).at2 position.1.val position.2.val =
        table.at2 position.1.val position.2.val := by
    intro position member
    rw [at2_set2 table row column position.1.val position.2.val value rowWithin columnWithin]
    apply if_neg
    rintro ⟨sameRow, sameColumn⟩
    exact (Finset.mem_erase.mp member).1 (Prod.ext (Fin.ext sameRow) (Fin.ext sameColumn))
  have assigned := at2_set2_same table row column value ⟨by omega, by omega⟩ ⟨by omega, by omega⟩
  rw [Finset.sum_congr rfl (fun position member => by rw [others position member])]
  dsimp only
  rw [assigned]
  omega

theorem countCells_fill2 (property : Cell → Bool) (without : property default = false) :
    (fill2 rows columns (default : Cell)).countCells property = 0 := by
  unfold countCells
  apply Finset.sum_eq_zero
  intro position _member
  rw [at2_fill2, without]
  rfl

end TwoDimensions

end CArray

end ChampSim

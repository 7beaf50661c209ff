/-
Recency lists: the keys that a bounded store keeps, from the one used last to
the one used longest ago, each with its value.
-/

import Mathlib.Data.List.Basic

set_option autoImplicit false

namespace ChampSim.Recency

variable {Key Value : Type} [DecidableEq Key]

def others (key : Key) (pairs : List (Key × Value)) : List (Key × Value) :=
  pairs.filter (fun pair => pair.1 ≠ key)

def lookup (key : Key) (pairs : List (Key × Value)) : Option Value × List (Key × Value) :=
  match pairs.find? (fun pair => pair.1 = key) with
  | none => (none, pairs)
  | some pair => (some pair.2, pair :: others key pairs)

/-- A new value for a key, which becomes the key used last. The key used longest
ago leaves when a new key finds the store full. -/
def insert (capacity : Nat) (key : Key) (value : Value) (pairs : List (Key × Value)) :
    List (Key × Value) :=
  if pairs.any (fun pair => pair.1 = key) then (key, value) :: others key pairs
  else if pairs.length < capacity then (key, value) :: pairs
  else if capacity = 0 then pairs
  else (key, value) :: pairs.dropLast

def remove (key : Key) (pairs : List (Key × Value)) : Option Value × List (Key × Value) :=
  match pairs.find? (fun pair => pair.1 = key) with
  | none => (none, pairs)
  | some pair => (some pair.2, others key pairs)

structure Bounded (capacity : Nat) (pairs : List (Key × Value)) : Prop where
  unique : (pairs.map Prod.fst).Nodup
  within : pairs.length ≤ capacity

/-! ### What a list has afterwards -/

theorem mem_lookup {key : Key} {pairs : List (Key × Value)}
    {pair : Key × Value} (member : pair ∈ (lookup key pairs).2) : pair ∈ pairs := by
  unfold lookup at member
  cases found : pairs.find? (fun pair => decide (pair.1 = key)) with
  | none =>
      rw [found] at member
      exact member
  | some first =>
      rw [found] at member
      rcases List.mem_cons.mp member with isFirst | other
      · rw [isFirst]
        exact List.mem_of_find?_eq_some found
      · exact (List.mem_filter.mp other).1

theorem lookup_some {key : Key} {pairs : List (Key × Value)} {value : Value}
    (found : (lookup key pairs).1 = some value) : (key, value) ∈ pairs := by
  unfold lookup at found
  cases search : pairs.find? (fun pair => decide (pair.1 = key)) with
  | none =>
      rw [search] at found
      cases found
  | some first =>
      rw [search] at found
      cases found
      have matched := List.find?_some search
      have same : first.1 = key := of_decide_eq_true matched
      rw [← same]
      exact List.mem_of_find?_eq_some search

theorem mem_insert {capacity : Nat} {key : Key} {value : Value} {pairs : List (Key × Value)}
    {pair : Key × Value} (member : pair ∈ insert capacity key value pairs) :
    pair = (key, value) ∨ (pair ∈ pairs ∧ pair.1 ≠ key) := by
  unfold insert at member
  by_cases present : pairs.any (fun pair => decide (pair.1 = key)) = true
  · rw [if_pos present] at member
    rcases List.mem_cons.mp member with isNew | other
    · exact Or.inl isNew
    · obtain ⟨old, differs⟩ := List.mem_filter.mp other
      exact Or.inr ⟨old, of_decide_eq_true differs⟩
  · have absent : ∀ other ∈ pairs, other.1 ≠ key := by
      intro other old same
      exact present (List.any_eq_true.mpr ⟨other, old, decide_eq_true same⟩)
    rw [if_neg present] at member
    split at member
    · rcases List.mem_cons.mp member with isNew | old
      · exact Or.inl isNew
      · exact Or.inr ⟨old, absent pair old⟩
    · split at member
      · exact Or.inr ⟨member, absent pair member⟩
      · rcases List.mem_cons.mp member with isNew | old
        · exact Or.inl isNew
        · have among := List.dropLast_subset pairs old
          exact Or.inr ⟨among, absent pair among⟩

end ChampSim.Recency

/-
A sorted list of keys and the place of a key in it, the result of
`std::lower_bound`, with the values of the keys in a second list beside it.
-/

import Mathlib.Data.List.Nodup
import Mathlib.Order.Lattice

set_option autoImplicit false

namespace ChampSim.SortedKeys

variable {Key Value : Type}

section Sorted

variable [LinearOrder Key]

/-- The first place whose key is not below this one, or the end. -/
def lowerBound (keys : List Key) (key : Key) : Nat :=
  keys.findIdx (fun other => decide (¬ other < key))

theorem lowerBound_above {first key : Key} (rest : List Key) (above : ¬ first < key) :
    lowerBound (first :: rest) key = 0 := by
  unfold lowerBound
  rw [List.findIdx_cons, decide_eq_true above]
  rfl

theorem lowerBound_below {first key : Key} (rest : List Key) (below : first < key) :
    lowerBound (first :: rest) key = lowerBound rest key + 1 := by
  unfold lowerBound
  rw [List.findIdx_cons, decide_eq_false (not_not_intro below)]
  rfl

theorem lowerBound_found {keys : List Key} (sorted : keys.Pairwise (· < ·)) (key : Key) :
    keys[lowerBound keys key]? = some key ↔ key ∈ keys := by
  constructor
  · exact List.mem_of_getElem?
  · intro member
    induction keys with
    | nil => cases member
    | cons first rest ih =>
        have later := List.pairwise_cons.mp sorted
        rcases List.mem_cons.mp member with same | inRest
        · subst same
          rw [lowerBound_above rest (lt_irrefl key), List.getElem?_cons_zero]
        · rw [lowerBound_below rest (later.1 key inRest), List.getElem?_cons_succ]
          exact ih later.2 inRest

theorem mem_insert (keys : List Key) (key other : Key) :
    other ∈ keys.insertIdx (lowerBound keys key) key ↔ other = key ∨ other ∈ keys :=
  List.mem_insertIdx List.findIdx_le_length

theorem insert_sorted {keys : List Key} (sorted : keys.Pairwise (· < ·)) {key : Key}
    (absent : key ∉ keys) : (keys.insertIdx (lowerBound keys key) key).Pairwise (· < ·) := by
  induction keys with
  | nil => exact List.pairwise_singleton _ key
  | cons first rest ih =>
      have later := List.pairwise_cons.mp sorted
      have different : first ≠ key := fun same => absent (same ▸ List.mem_cons_self)
      by_cases below : first < key
      · rw [lowerBound_below rest below, List.insertIdx_succ_cons, List.pairwise_cons]
        constructor
        · intro other member
          rcases (mem_insert rest key other).mp member with same | inRest
          · exact same ▸ below
          · exact later.1 other inRest
        · exact ih later.2 (fun inRest => absent (List.mem_cons_of_mem first inRest))
      · have keyBelow : key < first := lt_of_le_of_ne (not_lt.mp below) different.symm
        rw [lowerBound_above rest below, List.insertIdx_zero, List.pairwise_cons]
        constructor
        · intro other member
          rcases List.mem_cons.mp member with same | inRest
          · exact same ▸ keyBelow
          · exact keyBelow.trans (later.1 other inRest)
        · exact sorted

end Sorted

section Distinct

variable [DecidableEq Key]

theorem mem_erase {keys : List Key} (distinct : keys.Nodup) {place : Nat} {key : Key}
    (stands : keys[place]? = some key) (other : Key) :
    other ∈ keys.eraseIdx place ↔ other ≠ key ∧ other ∈ keys := by
  obtain ⟨within, same⟩ := List.getElem?_eq_some_iff.mp stands
  rw [← distinct.erase_getElem place within, same, distinct.mem_erase_iff]

/-- An assignment to the value beside a key changes what is counted for that key alone. -/
theorem map_update {keys : List Key} (distinct : keys.Nodup) (count : Key → Value) {place : Nat}
    {key : Key} (stands : keys[place]? = some key) (value : Value) :
    (keys.map count).set place value = keys.map (Function.update count key value) := by
  obtain ⟨within, same⟩ := List.getElem?_eq_some_iff.mp stands
  have first : keys.idxOf key = place := by
    rw [← same]
    exact distinct.idxOf_getElem place within
  rw [distinct.map_update, if_pos (List.mem_of_getElem? stands), first]

end Distinct

end ChampSim.SortedKeys

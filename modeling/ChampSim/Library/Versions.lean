/-
Items that are handed out as versions of keys.

A key has at most one committed version, and pending versions in the order in
which they were handed out; all other items are free. A version is committed
when it is the oldest that is pending, and the one before it becomes free.
-/

import Mathlib.Data.List.Nodup
import Mathlib.Data.List.Perm.Basic
import Mathlib.Logic.Function.Basic

set_option autoImplicit false

namespace ChampSim.Versions

variable {Key Item : Type} [DecidableEq Key]

def ofKey (pending : List (Key × Item)) (key : Key) : List Item :=
  (pending.filter (fun version => decide (version.1 = key))).map Prod.snd

def latest (committed : Key → Option Item) (pending : List (Key × Item)) (key : Key) :
    Option Item :=
  ((committed key).toList ++ ofKey pending key).getLast?

/-- Every item: the free ones, the committed versions and the pending ones. -/
def items (keys : List Key) (free : List Item) (committed : Key → Option Item)
    (pending : List (Key × Item)) : List Item :=
  free ++ keys.filterMap committed ++ pending.map Prod.snd

/-! ### The youngest version -/

theorem ofKey_append (pending others : List (Key × Item)) (key : Key) :
    ofKey (pending ++ others) key = ofKey pending key ++ ofKey others key := by
  unfold ofKey
  rw [List.filter_append, List.map_append]

theorem ofKey_cons_self (pending : List (Key × Item)) (key : Key) (item : Item) :
    ofKey ((key, item) :: pending) key = item :: ofKey pending key := by
  simp only [ofKey, List.filter_cons, decide_true, if_true, List.map_cons]

theorem ofKey_cons_ne (pending : List (Key × Item)) (other key : Key) (item : Item)
    (different : other ≠ key) : ofKey ((other, item) :: pending) key = ofKey pending key := by
  simp only [ofKey, List.filter_cons, decide_eq_false different, Bool.false_eq_true, if_false]

theorem ofKey_mem (pending : List (Key × Item)) (key : Key) (item : Item) :
    item ∈ ofKey pending key ↔ (key, item) ∈ pending := by
  unfold ofKey
  rw [List.mem_map]
  constructor
  · rintro ⟨version, member, same⟩
    obtain ⟨among, mine⟩ := List.mem_filter.mp member
    rw [← of_decide_eq_true mine, ← same]
    exact among
  · intro member
    exact ⟨(key, item), List.mem_filter.mpr ⟨member, decide_eq_true rfl⟩, rfl⟩

theorem latest_append_all (committed : Key → Option Item) (pending others : List (Key × Item))
    (key : Key) : latest committed (pending ++ others) key =
      (ofKey others key).getLast?.or (latest committed pending key) := by
  unfold latest
  rw [ofKey_append, ← List.append_assoc, List.getLast?_append]

theorem latest_append (committed : Key → Option Item) (pending : List (Key × Item))
    (handed : Key) (item : Item) (key : Key) :
    latest committed (pending ++ [(handed, item)]) key =
      if handed = key then some item else latest committed pending key := by
  rw [latest_append_all]
  by_cases mine : handed = key
  · subst mine
    rw [if_pos rfl, ofKey_cons_self]
    rfl
  · rw [if_neg mine, ofKey_cons_ne _ _ _ _ mine]
    rfl

theorem latest_eq_none (committed : Key → Option Item) (pending : List (Key × Item))
    (key : Key) : latest committed pending key = none ↔
      committed key = none ∧ ofKey pending key = [] := by
  unfold latest
  rw [List.getLast?_eq_none_iff, List.append_eq_nil_iff, Option.toList_eq_nil_iff]

theorem latest_mem (committed : Key → Option Item) (pending : List (Key × Item)) (key : Key)
    (item : Item) (found : latest committed pending key = some item) :
    committed key = some item ∨ (key, item) ∈ pending := by
  rcases List.mem_append.mp (List.mem_of_getLast? found) with old | new
  · exact Or.inl (Option.mem_toList.mp old)
  · exact Or.inr ((ofKey_mem pending key item).mp new)

/-- An item that is committed for a key without versions is its youngest one. -/
theorem latest_adopt (committed : Key → Option Item) (pending : List (Key × Item))
    (adopted : Key) (item : Item) (unmapped : latest committed pending adopted = none)
    (key : Key) : latest (Function.update committed adopted (some item)) pending key =
      if adopted = key then some item else latest committed pending key := by
  by_cases mine : adopted = key
  · subst mine
    rw [if_pos rfl]
    unfold latest
    rw [((latest_eq_none committed pending adopted).mp unmapped).2, Function.update_self,
      List.append_nil]
    rfl
  · rw [if_neg mine]
    unfold latest
    rw [Function.update_of_ne (fun same => mine same.symm)]

theorem latest_commit (committed : Key → Option Item) (pending : List (Key × Item))
    (oldest : Key) (item : Item) (key : Key) :
    latest (Function.update committed oldest (some item)) pending key =
      latest committed ((oldest, item) :: pending) key := by
  unfold latest
  by_cases mine : oldest = key
  · subst mine
    rw [ofKey_cons_self, Function.update_self,
      List.getLast?_append_of_ne_nil _ (List.cons_ne_nil _ _)]
    rfl
  · rw [ofKey_cons_ne _ _ _ _ mine, Function.update_of_ne (fun same => mine same.symm)]

/-! ### All items -/

theorem filterMap_update (keys : List Key) (distinct : keys.Nodup) (committed : Key → Option Item)
    (key : Key) (known : key ∈ keys) (item : Item) :
    ∃ others, (keys.filterMap committed).Perm ((committed key).toList ++ others) ∧
      (keys.filterMap (Function.update committed key (some item))).Perm (item :: others) := by
  obtain ⟨front, back, split⟩ := List.append_of_mem known
  subst split
  rw [List.nodup_append, List.nodup_cons] at distinct
  have unchanged : ∀ rest : List Key, key ∉ rest →
      rest.filterMap (Function.update committed key (some item)) = rest.filterMap committed := by
    intro rest absent
    apply List.filterMap_congr
    intro other member
    have different : other ≠ key := fun same => absent (same ▸ member)
    exact Function.update_of_ne different _ _
  have inFront : key ∉ front := fun member =>
    distinct.2.2 key member key List.mem_cons_self rfl
  refine ⟨front.filterMap committed ++ back.filterMap committed, ?_, ?_⟩
  · rw [List.filterMap_append, List.filterMap_cons]
    cases committed key with
    | none => exact List.Perm.refl _
    | some older => exact List.perm_middle
  · rw [List.filterMap_append, unchanged front inFront, List.filterMap_cons,
      Function.update_self, unchanged back distinct.2.1.1]
    exact List.perm_middle

omit [DecidableEq Key] in
theorem items_append (keys : List Key) (free : List Item) (committed : Key → Option Item)
    (pending : List (Key × Item)) (key : Key) (item : Item) :
    (items keys free committed (pending ++ [(key, item)])).Perm
      (items keys (item :: free) committed pending) := by
  unfold items
  rw [List.map_append, ← List.append_assoc]
  exact List.perm_append_singleton item _

theorem items_adopt (keys : List Key) (distinct : keys.Nodup) (free : List Item)
    (committed : Key → Option Item) (pending : List (Key × Item)) (key : Key) (known : key ∈ keys)
    (unmapped : committed key = none) (item : Item) :
    (items keys free (Function.update committed key (some item)) pending).Perm
      (items keys (item :: free) committed pending) := by
  obtain ⟨others, before, after⟩ := filterMap_update keys distinct committed key known item
  rw [unmapped] at before
  unfold items
  apply List.Perm.append_right
  have moved : (free ++ (item :: others)).Perm (item :: (free ++ others)) := List.perm_middle
  exact ((after.append_left free).trans moved).trans
    ((before.symm.append_left free).cons item)

/-- The oldest pending version is committed, and the version before it is free. -/
theorem items_commit (keys : List Key) (distinct : keys.Nodup) (free : List Item)
    (committed : Key → Option Item) (pending : List (Key × Item)) (key : Key) (known : key ∈ keys)
    (item : Item) :
    (items keys (free ++ (committed key).toList) (Function.update committed key (some item))
      pending).Perm (items keys free committed ((key, item) :: pending)) := by
  obtain ⟨others, before, after⟩ := filterMap_update keys distinct committed key known item
  unfold items
  rw [List.map_cons]
  have committing : (free ++ (committed key).toList ++
      keys.filterMap (Function.update committed key (some item))).Perm
        (item :: (free ++ keys.filterMap committed)) := by
    have placed : (free ++ (committed key).toList ++ (item :: others)).Perm
        (item :: (free ++ (committed key).toList ++ others)) := List.perm_middle
    rw [List.append_assoc free _ others] at placed
    exact ((after.append_left _).trans placed).trans ((before.symm.append_left free).cons item)
  exact (committing.append_right _).trans List.perm_middle.symm

end ChampSim.Versions

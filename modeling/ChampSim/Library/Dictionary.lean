/-
Dictionaries as lists of entries with distinct keys, in the order in which the
keys were first assigned.

An update assigns entries one after another: the last value of a key remains, in
the first place of the key. Two dictionaries with the same keys in the same order
and the same value for each key are equal.
-/

import Mathlib.Data.List.Nodup

set_option autoImplicit false

namespace ChampSim.Dictionary

variable {Key Item : Type}

def keys (items : List (Key × Item)) : List Key := items.map Prod.fst

@[simp] theorem keys_nil : keys ([] : List (Key × Item)) = [] := rfl

@[simp] theorem keys_cons (entry : Key × Item) (rest : List (Key × Item)) :
    keys (entry :: rest) = entry.1 :: keys rest := rfl

/-- The entries that a function of the key and the value keeps, with their new values. -/
def comprehension (keep : Key → Item → Option Item) (items : List (Key × Item)) :
    List (Key × Item) :=
  items.filterMap (fun entry => (keep entry.1 entry.2).map (fun item => (entry.1, item)))

theorem keys_comprehension_sublist (keep : Key → Item → Option Item) (items : List (Key × Item)) :
    (keys (comprehension keep items)).Sublist (keys items) := by
  induction items with
  | nil => exact List.Sublist.refl _
  | cons entry rest ih =>
      unfold comprehension at ih ⊢
      rw [List.filterMap_cons]
      cases keep entry.1 entry.2 with
      | none => exact ih.cons _
      | some item => exact ih.cons_cons _

variable [DecidableEq Key]

/-- The value goes to the place of the key, or to the end. -/
def assign : List (Key × Item) → Key × Item → List (Key × Item)
  | [], entry => [entry]
  | first :: rest, entry =>
      if first.1 = entry.1 then (first.1, entry.2) :: rest else first :: assign rest entry

def update (items entries : List (Key × Item)) : List (Key × Item) := entries.foldl assign items

/-! ### Lookups -/

theorem lookup_cons_same (entry : Key × Item) (rest : List (Key × Item)) :
    (entry :: rest).lookup entry.1 = some entry.2 := by
  rw [List.lookup_cons, beq_self_eq_true]

theorem lookup_cons_other {entry : Key × Item} {key : Key} (different : key ≠ entry.1)
    (rest : List (Key × Item)) : (entry :: rest).lookup key = rest.lookup key := by
  rw [List.lookup_cons, beq_false_of_ne different]

theorem lookup_singleton (entry : Key × Item) (key : Key) :
    [entry].lookup key = if key = entry.1 then some entry.2 else none := by
  split
  · rename_i same
    rw [same, lookup_cons_same]
  · rename_i different
    rw [lookup_cons_other different]
    rfl

theorem lookup_eq_none_iff {items : List (Key × Item)} {key : Key} :
    items.lookup key = none ↔ key ∉ keys items := by
  induction items with
  | nil => simp
  | cons entry rest ih =>
      by_cases same : key = entry.1
      · subst same
        rw [lookup_cons_same]
        simp
      · rw [lookup_cons_other same, ih, keys_cons, List.mem_cons]
        simp only [same, false_or]

theorem lookup_eq_some_iff {items : List (Key × Item)} (distinct : (keys items).Nodup) {key : Key}
    {item : Item} : items.lookup key = some item ↔ (key, item) ∈ items := by
  induction items with
  | nil => simp
  | cons entry rest ih =>
      obtain ⟨fresh, later⟩ := List.nodup_cons.mp distinct
      by_cases same : key = entry.1
      · subst same
        have absent : (entry.1, item) ∉ rest := fun member =>
          fresh (List.mem_map.mpr ⟨(entry.1, item), member, rfl⟩)
        rw [lookup_cons_same, List.mem_cons, Option.some_inj]
        constructor
        · rintro rfl
          exact Or.inl rfl
        · rintro (here | inRest)
          · rw [← here]
          · exact absurd inRest absent
      · rw [lookup_cons_other same, ih later, List.mem_cons]
        constructor
        · exact Or.inr
        · rintro (here | inRest)
          · exact absurd (congrArg Prod.fst here) same
          · exact inRest

theorem eq_of_lookup {first second : List (Key × Item)} (distinct : (keys first).Nodup)
    (sameKeys : keys first = keys second)
    (sameItems : ∀ key ∈ keys first, first.lookup key = second.lookup key) : first = second := by
  induction first generalizing second with
  | nil =>
      cases second with
      | nil => rfl
      | cons other more => cases sameKeys
  | cons entry rest ih =>
      cases second with
      | nil => cases sameKeys
      | cons other more =>
          obtain ⟨sameKey, sameRest⟩ := List.cons.inj sameKeys
          obtain ⟨fresh, later⟩ := List.nodup_cons.mp distinct
          have sameItem := sameItems entry.1 List.mem_cons_self
          have otherItem := lookup_cons_same other more
          rw [← sameKey] at otherItem
          rw [lookup_cons_same, otherItem] at sameItem
          have sameEntry : entry = other := Prod.ext sameKey (Option.some.inj sameItem)
          subst sameEntry
          have restItems : ∀ key ∈ keys rest, rest.lookup key = more.lookup key := by
            intro key member
            have different : key ≠ entry.1 := by
              rintro rfl
              exact fresh member
            have sameLookup := sameItems key (List.mem_cons_of_mem _ member)
            rw [lookup_cons_other different, lookup_cons_other different] at sameLookup
            exact sameLookup
          rw [ih later sameRest restItems]

theorem lookup_comprehension (keep : Key → Item → Option Item) (items : List (Key × Item))
    (distinct : (keys items).Nodup) (key : Key) :
    (comprehension keep items).lookup key = (items.lookup key).bind (keep key) := by
  induction items with
  | nil => rfl
  | cons entry rest ih =>
      obtain ⟨fresh, later⟩ := List.nodup_cons.mp distinct
      have rested := ih later
      unfold comprehension at rested ⊢
      rw [List.filterMap_cons]
      by_cases same : key = entry.1
      · subst same
        rw [lookup_eq_none_iff.mpr fresh] at rested
        rw [lookup_cons_same, Option.bind_some]
        cases keep entry.1 entry.2 with
        | none => exact rested
        | some item => exact lookup_cons_same (entry.1, item) _
      · rw [lookup_cons_other same, ← rested]
        cases keep entry.1 entry.2 with
        | none => rfl
        | some item => exact lookup_cons_other (show key ≠ (entry.1, item).1 from same) _

/-! ### Assignments -/

theorem lookup_assign (items : List (Key × Item)) (entry : Key × Item) (key : Key) :
    (assign items entry).lookup key = if key = entry.1 then some entry.2 else items.lookup key := by
  induction items with
  | nil => exact lookup_singleton entry key
  | cons first rest ih =>
      unfold assign
      by_cases here : first.1 = entry.1
      · rw [if_pos here, List.lookup_cons, List.lookup_cons, here]
        by_cases same : key = entry.1
        · rw [if_pos same, beq_iff_eq.mpr same]
        · rw [if_neg same, beq_false_of_ne same]
      · rw [if_neg here, List.lookup_cons, List.lookup_cons, ih]
        by_cases same : key = entry.1
        · have other : key ≠ first.1 := fun meets => here (meets.symm.trans same)
          rw [if_pos same, if_pos same, beq_false_of_ne other]
        · rw [if_neg same, if_neg same]

theorem update_eq_nil {items entries : List (Key × Item)} (nothing : update items entries = []) :
    items = [] ∧ entries = [] := by
  induction entries generalizing items with
  | nil => exact ⟨nothing, rfl⟩
  | cons entry rest ih =>
      have assigned := (ih nothing).1
      cases items with
      | nil => cases assigned
      | cons first more =>
          unfold assign at assigned
          split at assigned <;> cases assigned

theorem keys_assign (items : List (Key × Item)) (entry : Key × Item) :
    keys (assign items entry) =
      if entry.1 ∈ keys items then keys items else keys items ++ [entry.1] := by
  induction items with
  | nil => rfl
  | cons first rest ih =>
      unfold assign
      by_cases here : first.1 = entry.1
      · rw [if_pos here, if_pos (by rw [← here]; exact List.mem_cons_self)]
        rfl
      · rw [if_neg here, keys_cons, ih, keys_cons]
        by_cases later : entry.1 ∈ keys rest
        · rw [if_pos later, if_pos (List.mem_cons_of_mem _ later)]
        · have absent : entry.1 ∉ first.1 :: keys rest := by
            intro member
            rcases List.mem_cons.mp member with same | inRest
            · exact here same.symm
            · exact later inRest
          rw [if_neg later, if_neg absent, List.cons_append]

theorem lookup_update (entries : List (Key × Item)) (distinct : (keys entries).Nodup)
    (items : List (Key × Item)) (key : Key) :
    (update items entries).lookup key = (entries.lookup key).or (items.lookup key) := by
  induction entries generalizing items with
  | nil => rfl
  | cons entry rest ih =>
      obtain ⟨fresh, later⟩ := List.nodup_cons.mp distinct
      unfold update at ih ⊢
      rw [List.foldl_cons, ih later, lookup_assign]
      by_cases same : key = entry.1
      · rw [if_pos same, same, lookup_eq_none_iff.mpr fresh, lookup_cons_same]
        rfl
      · rw [if_neg same, lookup_cons_other same]

theorem keys_update (entries : List (Key × Item)) (distinct : (keys entries).Nodup)
    (items : List (Key × Item)) :
    keys (update items entries) =
      keys items ++ (keys entries).filter (fun key => decide (key ∉ keys items)) := by
  induction entries generalizing items with
  | nil => exact (List.append_nil _).symm
  | cons entry rest ih =>
      obtain ⟨fresh, later⟩ := List.nodup_cons.mp distinct
      unfold update at ih ⊢
      rw [List.foldl_cons, ih later, keys_assign, keys_cons, List.filter_cons]
      by_cases member : entry.1 ∈ keys items
      · rw [if_pos member, if_neg (by simpa using member)]
      · rw [if_neg member, if_pos (by simpa using member), List.append_assoc, List.singleton_append]
        congr 2
        apply List.filter_congr
        intro key inRest
        have different : key ≠ entry.1 := by
          rintro rfl
          exact fresh inRest
        simp [different]

theorem update_distinct {items : List (Key × Item)} (distinct : (keys items).Nodup)
    (entries : List (Key × Item)) : (keys (update items entries)).Nodup := by
  induction entries generalizing items with
  | nil => exact distinct
  | cons entry rest ih =>
      apply ih
      rw [keys_assign]
      split
      · exact distinct
      · rename_i absent
        exact List.nodup_append.mpr ⟨distinct, List.nodup_singleton _, by
          intro key member other single same
          rw [List.mem_singleton] at single
          exact absent (single ▸ same ▸ member)⟩

theorem keys_update_of_subset {entries items : List (Key × Item)} (distinct : (keys entries).Nodup)
    (subset : ∀ key ∈ keys entries, key ∈ keys items) :
    keys (update items entries) = keys items := by
  rw [keys_update entries distinct]
  have nothing : (keys entries).filter (fun key => decide (key ∉ keys items)) = [] := by
    apply List.filter_eq_nil_iff.mpr
    intro key member
    simpa using subset key member
  rw [nothing, List.append_nil]

theorem update_nil (entries : List (Key × Item)) (distinct : (keys entries).Nodup) :
    update [] entries = entries := by
  have sameKeys : keys (update [] entries) = keys entries := by
    rw [keys_update entries distinct]
    simp
  apply eq_of_lookup (sameKeys ▸ distinct) sameKeys
  intro key _member
  rw [lookup_update entries distinct]
  exact Option.or_none

theorem newKeys_assoc (first second third : List Key) :
    third ++ (second ++ first.filter (fun key => decide (key ∉ second))).filter
        (fun key => decide (key ∉ third)) =
      (third ++ second.filter (fun key => decide (key ∉ third))) ++
        first.filter (fun key =>
          decide (key ∉ third ++ second.filter (fun key => decide (key ∉ third)))) := by
  rw [List.filter_append, List.filter_filter, List.append_assoc]
  congr 2
  apply List.filter_congr
  intro key _member
  rw [Bool.eq_iff_iff]
  simp only [Bool.and_eq_true, decide_eq_true_eq, List.mem_append, List.mem_filter, not_or]
  constructor
  · rintro ⟨notThird, notSecond⟩
    exact ⟨notThird, fun member => notSecond member.1⟩
  · rintro ⟨notThird, notBoth⟩
    exact ⟨notThird, fun member => notBoth ⟨member, notThird⟩⟩

omit [DecidableEq Key] in
theorem merge_assoc {combine : Item → Item → Item} {first second third : Option Item}
    (assoc : ∀ value other another, first = some value → second = some other →
      third = some another →
      combine (combine value other) another = combine value (combine other another)) :
    Option.merge combine (Option.merge combine first second) third =
      Option.merge combine first (Option.merge combine second third) := by
  cases first with
  | none => rw [Option.merge_none_left, Option.merge_none_left]
  | some value =>
      cases second with
      | none => rw [Option.merge_none_right, Option.merge_none_left]
      | some other =>
          cases third with
          | none => rw [Option.merge_none_right, Option.merge_none_right]
          | some another => exact congrArg some (assoc value other another rfl rfl rfl)

end ChampSim.Dictionary

/-
`chain` of config/util.py: dictionaries are merged from the left, and the
earlier ones have priority.

A configuration value is a dictionary, a list or anything else. The keys of a
dictionary are distinct at every depth.
-/

import ChampSim.Library.Dictionary

set_option autoImplicit false

namespace ChampSim.Config

open Dictionary (keys update comprehension)

inductive Value (Key Element Other : Type) where
  | dict (items : List (Key × Value Key Element Other))
  | list (elements : List Element)
  | other (value : Other)

variable {Key Element Other : Type}

abbrev Items (Key Element Other : Type) := List (Key × Value Key Element Other)

section Merges

variable [DecidableEq Key]

/-- `merge`, where the merger tests the types. -/
def merge (merger : Value Key Element Other → Value Key Element Other →
      Option (Value Key Element Other)) (lhs rhs : Items Key Element Other) :
    Items Key Element Other :=
  comprehension (fun key value => (rhs.lookup key).bind (merger value)) lhs

/-- `operator.concat`, for lists. -/
def concat : Value Key Element Other → Value Key Element Other → Option (Value Key Element Other)
  | .list lhs, .list rhs => some (.list (lhs ++ rhs))
  | _, _ => none

/-- `merge_dicts`. -/
def mergeDicts (lhs rhs : Items Key Element Other) : Items Key Element Other :=
  let dictMerges := lhs.filterMap (fun entry =>
    match _isDict : entry.2, rhs.lookup entry.1 with
    | .dict value, some (.dict other) => some (entry.1, Value.dict (mergeDicts value other))
    | _, _ => none)
  let listMerges := merge concat lhs rhs
  update [] (rhs ++ lhs ++ dictMerges ++ listMerges)
termination_by sizeOf lhs
decreasing_by
  rename_i member
  have smaller := List.sizeOf_lt_of_mem member
  have same : entry = (entry.1, Value.dict value) := Prod.ext rfl _isDict
  rw [same] at smaller
  simp at smaller
  omega

/-- `merge_dicts` as the merger of `merge`. -/
def mergeDict : Value Key Element Other → Value Key Element Other →
    Option (Value Key Element Other)
  | .dict lhs, .dict rhs => some (.dict (mergeDicts lhs rhs))
  | _, _ => none

theorem mergeDicts_eq (lhs rhs : Items Key Element Other) :
    mergeDicts lhs rhs =
      update [] (rhs ++ lhs ++ merge mergeDict lhs rhs ++ merge concat lhs rhs) := by
  rw [mergeDicts]
  congr 3
  unfold merge comprehension
  apply List.filterMap_congr
  rintro ⟨key, value⟩ _member
  dsimp only
  cases rhs.lookup key with
  | none => cases value <;> rfl
  | some other => cases value <;> cases other <;> rfl

def Value.overlay : Value Key Element Other → Value Key Element Other → Value Key Element Other
  | .dict lhs, .dict rhs => .dict (mergeDicts lhs rhs)
  | .list lhs, .list rhs => .list (lhs ++ rhs)
  | lhs, _ => lhs

theorem merge_keys (merger : Value Key Element Other → Value Key Element Other →
      Option (Value Key Element Other)) {lhs : Items Key Element Other}
    (distinct : (keys lhs).Nodup) (rhs : Items Key Element Other) :
    (keys (merge merger lhs rhs)).Nodup ∧
      ∀ key ∈ keys (merge merger lhs rhs), key ∈ keys lhs :=
  ⟨(Dictionary.keys_comprehension_sublist _ lhs).nodup distinct,
    fun _key member => (Dictionary.keys_comprehension_sublist _ lhs).subset member⟩

theorem lookup_merge (merger : Value Key Element Other → Value Key Element Other →
      Option (Value Key Element Other)) {lhs : Items Key Element Other}
    (distinct : (keys lhs).Nodup) (rhs : Items Key Element Other) (key : Key) :
    (merge merger lhs rhs).lookup key =
      (lhs.lookup key).bind (fun value => (rhs.lookup key).bind (merger value)) :=
  Dictionary.lookup_comprehension _ lhs distinct key

section MergeDicts

variable {lhs rhs : Items Key Element Other}
variable (lhsDistinct : (keys lhs).Nodup) (rhsDistinct : (keys rhs).Nodup)

include rhsDistinct in
theorem mergeDicts_updates :
    mergeDicts lhs rhs =
      update (update (update rhs lhs) (merge mergeDict lhs rhs)) (merge concat lhs rhs) := by
  rw [mergeDicts_eq]
  unfold update
  rw [List.foldl_append, List.foldl_append, List.foldl_append]
  change update (update (update (update [] rhs) lhs) _) _ = _
  rw [Dictionary.update_nil rhs rhsDistinct]
  rfl

include lhsDistinct rhsDistinct in
theorem keys_mergeDicts :
    keys (mergeDicts lhs rhs) =
      keys rhs ++ (keys lhs).filter (fun key => decide (key ∉ keys rhs)) := by
  have overlaid := Dictionary.keys_update lhs lhsDistinct rhs
  have added : ∀ key ∈ keys lhs, key ∈ keys (update rhs lhs) := by
    intro key member
    rw [overlaid, List.mem_append, List.mem_filter]
    by_cases there : key ∈ keys rhs
    · exact Or.inl there
    · exact Or.inr ⟨member, decide_eq_true there⟩
  have dicts := merge_keys mergeDict lhsDistinct rhs
  have lists := merge_keys concat lhsDistinct rhs
  have kept : keys (update (update rhs lhs) (merge mergeDict lhs rhs)) = keys (update rhs lhs) :=
    Dictionary.keys_update_of_subset dicts.1 (fun key member => added key (dicts.2 key member))
  rw [mergeDicts_updates rhsDistinct, Dictionary.keys_update_of_subset lists.1, kept, overlaid]
  intro key member
  rw [kept]
  exact added key (lists.2 key member)

include rhsDistinct in
variable (lhs) in
theorem mergeDicts_distinct : (keys (mergeDicts lhs rhs)).Nodup := by
  rw [mergeDicts_updates rhsDistinct]
  exact Dictionary.update_distinct
    (Dictionary.update_distinct (Dictionary.update_distinct rhsDistinct _) _) _

include lhsDistinct rhsDistinct in
/-- The merges are in front of the left dictionary, and that one in front of the right. -/
theorem lookup_mergeDicts (key : Key) :
    (mergeDicts lhs rhs).lookup key =
      Option.merge Value.overlay (lhs.lookup key) (rhs.lookup key) := by
  have dicts := merge_keys mergeDict lhsDistinct rhs
  have lists := merge_keys concat lhsDistinct rhs
  rw [mergeDicts_updates rhsDistinct, Dictionary.lookup_update _ lists.1,
    Dictionary.lookup_update _ dicts.1, Dictionary.lookup_update _ lhsDistinct,
    lookup_merge _ lhsDistinct, lookup_merge _ lhsDistinct]
  cases lhs.lookup key with
  | none => cases rhs.lookup key <;> rfl
  | some value =>
      cases rhs.lookup key with
      | none => rfl
      | some other => cases value <;> cases other <;> rfl

end MergeDicts

/-! ### Values with distinct keys -/

inductive Value.Distinct : Value Key Element Other → Prop where
  | dict (items : Items Key Element Other) (distinct : (keys items).Nodup)
      (inner : ∀ entry ∈ items, entry.2.Distinct) : Distinct (.dict items)
  | list (elements : List Element) : Distinct (.list elements)
  | other (value : Other) : Distinct (.other value)

omit [DecidableEq Key] in
theorem Value.Distinct.keys {items : Items Key Element Other}
    (distinct : (Value.dict items).Distinct) : (Dictionary.keys items).Nodup := by
  cases distinct with
  | dict items distinct inner => exact distinct

theorem Value.Distinct.lookup {items : Items Key Element Other}
    (distinct : (Value.dict items).Distinct) {key : Key} {value : Value Key Element Other}
    (found : items.lookup key = some value) : value.Distinct := by
  cases distinct with
  | dict items distinct inner =>
      exact inner (key, value) ((Dictionary.lookup_eq_some_iff distinct).mp found)

theorem Value.overlay_distinct {lhs rhs : Value Key Element Other} (lhsDistinct : lhs.Distinct)
    (rhsDistinct : rhs.Distinct) : (lhs.overlay rhs).Distinct := by
  induction lhsDistinct generalizing rhs with
  | list elements =>
      cases rhs with
      | list others => exact Value.Distinct.list _
      | dict items => exact Value.Distinct.list _
      | other value => exact Value.Distinct.list _
  | other value => cases rhs <;> exact Value.Distinct.other _
  | dict items distinct inner ih =>
      cases rhs with
      | list elements => exact Value.Distinct.dict items distinct inner
      | other value => exact Value.Distinct.dict items distinct inner
      | dict others =>
          have merged := mergeDicts_distinct items rhsDistinct.keys
          refine Value.Distinct.dict _ merged ?_
          rintro ⟨key, value⟩ member
          have found := (Dictionary.lookup_eq_some_iff merged).mpr member
          rw [lookup_mergeDicts distinct rhsDistinct.keys] at found
          rcases Option.merge_eq_some_iff.mp found with
            ⟨left, _absent⟩ | ⟨_absent, right⟩ | ⟨first, second, left, right, merges⟩
          · exact inner (key, value) ((Dictionary.lookup_eq_some_iff distinct).mp left)
          · exact rhsDistinct.lookup right
          · have among := (Dictionary.lookup_eq_some_iff distinct).mp left
            have overlaid := ih (key, first) among (rhsDistinct.lookup right)
            rw [merges] at overlaid
            exact overlaid

/-! ### Key paths -/

def Value.find : Value Key Element Other → List Key → Option (Value Key Element Other)
  | value, [] => some value
  | .dict items, key :: path => (items.lookup key).bind (fun value => value.find path)
  | _, _ :: _ => none

inductive Kind where
  | dictionary
  | list
  | other
deriving DecidableEq, Repr

def Value.kind : Value Key Element Other → Kind
  | .dict _ => .dictionary
  | .list _ => .list
  | .other _ => .other

/-- The values have the same kind at every key path that they share. -/
def Value.Agree (lhs rhs : Value Key Element Other) : Prop :=
  ∀ path left right, lhs.find path = some left → rhs.find path = some right →
    left.kind = right.kind

theorem Value.Agree.kind_eq {lhs rhs : Value Key Element Other} (agree : lhs.Agree rhs) :
    lhs.kind = rhs.kind := agree [] lhs rhs rfl rfl

theorem Value.Agree.exists_dict {items : Items Key Element Other} {rhs : Value Key Element Other}
    (agree : (Value.dict items).Agree rhs) : ∃ others, rhs = .dict others := by
  have same := agree.kind_eq
  cases rhs with
  | dict others => exact ⟨others, rfl⟩
  | list elements => cases same
  | other value => cases same

theorem Value.Agree.exists_list {left : List Element} {rhs : Value Key Element Other}
    (agree : (Value.list left).Agree rhs) : ∃ right, rhs = .list right := by
  have same := agree.kind_eq
  cases rhs with
  | list right => exact ⟨right, rfl⟩
  | dict others => cases same
  | other value => cases same

theorem Value.agree_list (lhs rhs : List Element) :
    (Value.list lhs : Value Key Element Other).Agree (.list rhs) := by
  intro path left right leftFound rightFound
  cases path with
  | nil =>
      cases leftFound
      cases rightFound
      rfl
  | cons key path => cases leftFound

theorem Value.Agree.lookup {lhs rhs : Items Key Element Other}
    (agree : (Value.dict lhs).Agree (.dict rhs)) {key : Key} {left right : Value Key Element Other}
    (leftFound : lhs.lookup key = some left) (rightFound : rhs.lookup key = some right) :
    left.Agree right := by
  intro path inner other innerFound otherFound
  apply agree (key :: path) inner other
  · rw [Value.find, leftFound]
    exact innerFound
  · rw [Value.find, rightFound]
    exact otherFound

theorem Value.overlay_kind (lhs rhs : Value Key Element Other) :
    (lhs.overlay rhs).kind = lhs.kind := by
  cases lhs <;> cases rhs <;> rfl

/-- What is at a path after a merge is merged of what was there before. -/
theorem Value.find_overlay {lhs rhs : Value Key Element Other} (lhsDistinct : lhs.Distinct)
    (rhsDistinct : rhs.Distinct) (agree : lhs.Agree rhs) (path : List Key) :
    (lhs.overlay rhs).find path = Option.merge Value.overlay (lhs.find path) (rhs.find path) := by
  induction path generalizing lhs rhs with
  | nil => rfl
  | cons key path ih =>
      cases lhs with
      | list elements =>
          obtain ⟨others, rfl⟩ := agree.exists_list
          rfl
      | other value =>
          cases rhs with
          | other another => rfl
          | list others => cases agree.kind_eq
          | dict items => cases agree.kind_eq
      | dict items =>
          obtain ⟨others, rfl⟩ := agree.exists_dict
          change ((mergeDicts items others).lookup key).bind _ = _
          rw [lookup_mergeDicts lhsDistinct.keys rhsDistinct.keys, Value.find, Value.find]
          cases left : items.lookup key with
          | none => rw [Option.merge_none_left, Option.bind_none, Option.merge_none_left]
          | some first =>
              cases right : others.lookup key with
              | none => rw [Option.merge_none_right, Option.bind_none, Option.merge_none_right]
              | some second =>
                  exact ih (lhsDistinct.lookup left) (rhsDistinct.lookup right)
                    (agree.lookup left right)

theorem Value.overlay_agree {first second third : Value Key Element Other}
    (firstDistinct : first.Distinct) (secondDistinct : second.Distinct)
    (agree : first.Agree second) (outer : first.Agree third) (later : second.Agree third) :
    (first.overlay second).Agree third := by
  intro path left right leftFound rightFound
  rw [Value.find_overlay firstDistinct secondDistinct agree] at leftFound
  rcases Option.merge_eq_some_iff.mp leftFound with
    ⟨inFirst, _absent⟩ | ⟨_absent, inSecond⟩ | ⟨value, other, inFirst, _inSecond, merges⟩
  · exact outer path left right inFirst rightFound
  · exact later path left right inSecond rightFound
  · rw [← merges, Value.overlay_kind]
    exact outer path value right inFirst rightFound

theorem Value.overlay_assoc {first second third : Value Key Element Other}
    (firstDistinct : first.Distinct) (secondDistinct : second.Distinct)
    (thirdDistinct : third.Distinct) (agree : first.Agree second) (later : second.Agree third)
    (outer : first.Agree third) :
    (first.overlay second).overlay third = first.overlay (second.overlay third) := by
  induction firstDistinct generalizing second third with
  | list elements =>
      obtain ⟨others, rfl⟩ := agree.exists_list
      obtain ⟨more, rfl⟩ := later.exists_list
      exact congrArg Value.list (List.append_assoc _ _ _)
  | other value => cases second <;> cases third <;> rfl
  | dict items distinct inner ih =>
      obtain ⟨others, rfl⟩ := agree.exists_dict
      obtain ⟨more, rfl⟩ := later.exists_dict
      have firstTwo := mergeDicts_distinct items secondDistinct.keys
      have lastTwo := mergeDicts_distinct others thirdDistinct.keys
      have allThree := mergeDicts_distinct (mergeDicts items others) thirdDistinct.keys
      apply congrArg Value.dict
      apply Dictionary.eq_of_lookup allThree
      · rw [keys_mergeDicts firstTwo thirdDistinct.keys,
          keys_mergeDicts distinct secondDistinct.keys,
          keys_mergeDicts distinct lastTwo,
          keys_mergeDicts secondDistinct.keys thirdDistinct.keys]
        exact Dictionary.newKeys_assoc _ _ _
      · intro key _member
        rw [lookup_mergeDicts firstTwo thirdDistinct.keys,
          lookup_mergeDicts distinct secondDistinct.keys,
          lookup_mergeDicts distinct lastTwo,
          lookup_mergeDicts secondDistinct.keys thirdDistinct.keys]
        apply Dictionary.merge_assoc
        intro value other another inFirst inSecond inThird
        have among := (Dictionary.lookup_eq_some_iff distinct).mp inFirst
        exact ih (key, value) among (secondDistinct.lookup inSecond)
          (thirdDistinct.lookup inThird) (agree.lookup inFirst inSecond)
          (later.lookup inSecond inThird) (outer.lookup inFirst inThird)

/-! ### Leaves and lists -/

def Value.isLeaf : Value Key Element Other → Bool
  | .dict items => items.isEmpty
  | .list _ => false
  | .other _ => true

def elements : Option (Value Key Element Other) → List Element
  | some (.list elements) => elements
  | _ => []

theorem Value.overlay_leaf {lhs rhs : Value Key Element Other}
    (isLeaf : (lhs.overlay rhs).isLeaf = true) : lhs.overlay rhs = lhs := by
  cases lhs with
  | list elements => cases rhs <;> cases isLeaf
  | other value => cases rhs <;> rfl
  | dict items =>
      cases rhs with
      | list others => rfl
      | other value => rfl
      | dict others =>
          have nothing : mergeDicts items others = [] := List.isEmpty_iff.mp isLeaf
          have merged := nothing
          rw [mergeDicts_eq] at merged
          have entries := (Dictionary.update_eq_nil merged).2
          simp only [List.append_eq_nil_iff] at entries
          change Value.dict (mergeDicts items others) = Value.dict items
          rw [nothing, entries.1.1.2]

/-! ### Dictionaries -/

/-- A dictionary whose keys are distinct at every depth. -/
@[ext] structure Dict (Key Element Other : Type) where
  items : Items Key Element Other
  distinct : (Value.dict items).Distinct

def Dict.empty : Dict Key Element Other where
  items := []
  distinct := Value.Distinct.dict [] List.nodup_nil (fun _ member => nomatch member)

def Dict.mergeDicts (lhs rhs : Dict Key Element Other) : Dict Key Element Other where
  items := Config.mergeDicts lhs.items rhs.items
  distinct := Value.overlay_distinct lhs.distinct rhs.distinct

def chain (dicts : List (Dict Key Element Other)) : Dict Key Element Other :=
  dicts.foldl Dict.mergeDicts Dict.empty

namespace Dict

def find (dict : Dict Key Element Other) (path : List Key) : Option (Value Key Element Other) :=
  (Value.dict dict.items).find path

def Agree (lhs rhs : Dict Key Element Other) : Prop :=
  (Value.dict lhs.items).Agree (.dict rhs.items)

omit [DecidableEq Key] in
theorem singleton_distinct (key : Key) {value : Value Key Element Other}
    (distinct : value.Distinct) : (Value.dict [(key, value)]).Distinct := by
  refine Value.Distinct.dict _ (List.nodup_singleton key) ?_
  intro entry member
  rw [List.mem_singleton.mp member]
  exact distinct

def singleton (key : Key) (value : Value Key Element Other) (distinct : value.Distinct) :
    Dict Key Element Other where
  items := [(key, value)]
  distinct := singleton_distinct key distinct

/-- Dictionaries of one key agree unless the key is the same and the values do not. -/
theorem singleton_agree {first second : Key} {value other : Value Key Element Other}
    (distinct : value.Distinct) (otherDistinct : other.Distinct)
    (agree : first = second → value.Agree other) :
    (singleton first value distinct).Agree (singleton second other otherDistinct) := by
  intro path left right leftFound rightFound
  cases path with
  | nil =>
      cases leftFound
      cases rightFound
      rfl
  | cons key path =>
      change ([(first, value)].lookup key).bind _ = some left at leftFound
      change ([(second, other)].lookup key).bind _ = some right at rightFound
      rw [Dictionary.lookup_singleton] at leftFound rightFound
      by_cases inFirst : key = first
      · by_cases inSecond : key = second
        · rw [if_pos inFirst] at leftFound
          rw [if_pos inSecond] at rightFound
          exact agree (inFirst.symm.trans inSecond) path left right leftFound rightFound
        · rw [if_neg inSecond] at rightFound
          cases rightFound
      · rw [if_neg inFirst] at leftFound
        cases leftFound

theorem find_mergeDicts {lhs rhs : Dict Key Element Other} (agree : lhs.Agree rhs)
    (path : List Key) :
    (lhs.mergeDicts rhs).find path =
      Option.merge Value.overlay (lhs.find path) (rhs.find path) :=
  Value.find_overlay lhs.distinct rhs.distinct agree path

theorem mergeDicts_agree {first second third : Dict Key Element Other} (agree : first.Agree second)
    (outer : first.Agree third) (later : second.Agree third) :
    (first.mergeDicts second).Agree third :=
  Value.overlay_agree first.distinct second.distinct agree outer later

theorem mergeDicts_assoc {first second third : Dict Key Element Other} (agree : first.Agree second)
    (later : second.Agree third) (outer : first.Agree third) :
    (first.mergeDicts second).mergeDicts third = first.mergeDicts (second.mergeDicts third) := by
  have grouped := Value.overlay_assoc first.distinct second.distinct third.distinct agree later outer
  apply Dict.ext
  exact Value.dict.inj grouped

theorem empty_mergeDicts (dict : Dict Key Element Other) : empty.mergeDicts dict = dict := by
  apply Dict.ext
  change Config.mergeDicts [] dict.items = dict.items
  rw [mergeDicts_updates dict.distinct.keys]
  rfl

theorem mergeDicts_empty (dict : Dict Key Element Other) : dict.mergeDicts empty = dict := by
  have nothing : (keys ([] : Items Key Element Other)).Nodup := List.nodup_nil
  apply Dict.ext
  change Config.mergeDicts dict.items [] = dict.items
  apply Dictionary.eq_of_lookup (mergeDicts_distinct dict.items nothing)
  · rw [keys_mergeDicts dict.distinct.keys nothing]
    simp
  · intro key _member
    rw [lookup_mergeDicts dict.distinct.keys nothing]
    exact Option.merge_none_right

theorem chain_cons (first : Dict Key Element Other) (rest : List (Dict Key Element Other)) :
    chain (first :: rest) = rest.foldl mergeDicts first := by
  unfold chain
  rw [List.foldl_cons, empty_mergeDicts]

/-- What a chain has at a path is merged of what its dictionaries have there, in order. -/
theorem find_foldl (rest : List (Dict Key Element Other)) (first : Dict Key Element Other)
    (agree : (first :: rest).Pairwise Agree) (path : List Key) :
    (rest.foldl mergeDicts first).find path =
      rest.foldl (fun found dict => Option.merge Value.overlay found (dict.find path))
        (first.find path) := by
  induction rest generalizing first with
  | nil => rfl
  | cons second rest ih =>
      obtain ⟨firstAgrees, restAgree⟩ := List.pairwise_cons.mp agree
      obtain ⟨secondAgrees, laterAgree⟩ := List.pairwise_cons.mp restAgree
      have together := firstAgrees second List.mem_cons_self
      have merged : (first.mergeDicts second :: rest).Pairwise Agree := by
        apply List.pairwise_cons.mpr
        refine ⟨?_, laterAgree⟩
        intro third member
        exact mergeDicts_agree together (firstAgrees third (List.mem_cons_of_mem _ member))
          (secondAgrees third member)
      rw [List.foldl_cons, List.foldl_cons, ih _ merged, find_mergeDicts together]

def listAt (path : List Key) (dict : Dict Key Element Other) : List Element :=
  elements (dict.find path)

/-- What is found at a path in one dictionary after another. -/
def gather (path : List Key) (found : Option (Value Key Element Other))
    (dicts : List (Dict Key Element Other)) : Option (Value Key Element Other) :=
  dicts.foldl (fun found dict => Option.merge Value.overlay found (dict.find path)) found

theorem gather_cons (path : List Key) (found : Option (Value Key Element Other))
    (dict : Dict Key Element Other) (rest : List (Dict Key Element Other)) :
    gather path found (dict :: rest) =
      gather path (Option.merge Value.overlay found (dict.find path)) rest := rfl

theorem findSome_cons (path : List Key) (dict : Dict Key Element Other)
    (rest : List (Dict Key Element Other)) :
    (dict :: rest).findSome? (fun dict => dict.find path) =
      (dict.find path).or (rest.findSome? (fun dict => dict.find path)) := by
  rw [List.findSome?_cons]
  cases dict.find path <;> rfl

/-- A leaf is never merged: it comes from the first dictionary that has the path. -/
theorem gather_leaf (path : List Key) (dicts : List (Dict Key Element Other))
    {found : Option (Value Key Element Other)} {leaf : Value Key Element Other}
    (isLeaf : leaf.isLeaf = true) (gathered : gather path found dicts = some leaf) :
    found.or (dicts.findSome? (fun dict => dict.find path)) = some leaf := by
  induction dicts generalizing found with
  | nil => rw [List.findSome?_nil, Option.or_none]; exact gathered
  | cons dict rest ih =>
      rw [gather_cons] at gathered
      have later := ih gathered
      cases found with
      | none =>
          rw [Option.merge_none_left] at later
          rw [Option.none_or, findSome_cons]
          exact later
      | some value =>
          cases there : dict.find path with
          | none =>
              rw [there, Option.merge_none_right] at later
              exact later
          | some other =>
              rw [there, Option.merge_some_some, Option.some_or, Option.some_inj] at later
              rw [← later] at isLeaf
              rw [Option.some_or, ← later, Value.overlay_leaf isLeaf]

theorem gather_kind (path : List Key) (dicts : List (Dict Key Element Other))
    {value result : Value Key Element Other}
    (gathered : gather path (some value) dicts = some result) : result.kind = value.kind := by
  induction dicts generalizing value with
  | nil =>
      cases gathered
      rfl
  | cons dict rest ih =>
      rw [gather_cons] at gathered
      cases there : dict.find path with
      | none =>
          rw [there, Option.merge_none_right] at gathered
          exact ih gathered
      | some other =>
          rw [there, Option.merge_some_some] at gathered
          rw [ih gathered, Value.overlay_kind]

theorem gather_list (path : List Key) (dicts : List (Dict Key Element Other))
    {found : Option (Value Key Element Other)} {joined : List Element}
    (gathered : gather path found dicts = some (.list joined)) :
    joined = elements found ++ dicts.flatMap (listAt path) := by
  induction dicts generalizing found with
  | nil =>
      have result : found = some (.list joined) := gathered
      rw [result, List.flatMap_nil, List.append_nil]
      rfl
  | cons dict rest ih =>
      rw [gather_cons] at gathered
      rw [ih gathered, List.flatMap_cons, ← List.append_assoc]
      congr 1
      unfold listAt
      cases found with
      | none => rw [Option.merge_none_left]; rfl
      | some value =>
          have isList := gather_kind path (dict :: rest) gathered
          cases value with
          | dict items => cases isList
          | other value => cases isList
          | list left =>
              cases dict.find path with
              | none => exact (List.append_nil left).symm
              | some other =>
                  cases other with
                  | list right => rfl
                  | dict items => exact (List.append_nil left).symm
                  | other value => exact (List.append_nil left).symm

theorem gather_isSome (path : List Key) (dicts : List (Dict Key Element Other))
    (found : Option (Value Key Element Other)) :
    (gather path found dicts).isSome ↔
      found.isSome ∨ ∃ dict ∈ dicts, (dict.find path).isSome := by
  induction dicts generalizing found with
  | nil => simp [gather]
  | cons dict rest ih =>
      rw [gather_cons, ih, Option.isSome_merge, Bool.or_eq_true, or_assoc, List.exists_mem_cons_iff]

end Dict

/-- For dictionaries that agree in kind, the grouping of chains does not matter, `{}` changes
nothing, a leaf is the one of the first dictionary that has the path, and a list is joined of the
lists at the path. -/
theorem chain_laws (first second third : Dict Key Element Other) (agree : first.Agree second)
    (later : second.Agree third) (outer : first.Agree third) :
    chain [first, second, third] = chain [chain [first, second], third] ∧
      chain [first, second, third] = chain [first, chain [second, third]] ∧
      chain [Dict.empty, first] = first ∧ chain [first, Dict.empty] = first ∧
      (∀ path leaf, (chain [first, second, third]).find path = some leaf → leaf.isLeaf = true →
        [first, second, third].findSome? (fun dict => dict.find path) = some leaf) ∧
      (∀ path joined, (chain [first, second, third]).find path = some (.list joined) →
        joined = first.listAt path ++ second.listAt path ++ third.listAt path) ∧
      ∀ path, ((chain [first, second, third]).find path).isSome ↔
        ∃ dict ∈ [first, second, third], (dict.find path).isSome := by
  have pairwise : [first, second, third].Pairwise Dict.Agree := by
    simp [agree, later, outer]
  have found : ∀ path, (chain [first, second, third]).find path =
      Dict.gather path (first.find path) [second, third] := by
    intro path
    rw [Dict.chain_cons]
    exact Dict.find_foldl [second, third] first pairwise path
  refine ⟨?_, ?_, ?_, ?_, ?_, ?_, ?_⟩
  · rw [Dict.chain_cons, Dict.chain_cons, Dict.chain_cons]
    rfl
  · rw [Dict.chain_cons, Dict.chain_cons, Dict.chain_cons]
    exact Dict.mergeDicts_assoc agree later outer
  · rw [Dict.chain_cons]
    exact Dict.empty_mergeDicts first
  · rw [Dict.chain_cons]
    exact Dict.mergeDicts_empty first
  · intro path leaf result isLeaf
    rw [found] at result
    rw [Dict.findSome_cons]
    exact Dict.gather_leaf path [second, third] isLeaf result
  · intro path joined result
    rw [found] at result
    have lists := Dict.gather_list path [second, third] result
    rw [List.flatMap_cons, List.flatMap_cons, List.flatMap_nil, List.append_nil,
      ← List.append_assoc] at lists
    exact lists
  · intro path
    rw [found, Dict.gather_isSome]
    exact (List.exists_mem_cons_iff (fun dict => (dict.find path).isSome = true) first
      [second, third]).symm

theorem chain_laws_singletons :
    chain [Dict.singleton "a" (.list [1, 2]) (.list [1, 2]),
        Dict.singleton "a" (.list [3, 4]) (.list [3, 4]),
        Dict.singleton "b" (.other "test") (.other "test")] =
      chain [Dict.singleton "a" (.list [1, 2]) (.list [1, 2]),
        chain [Dict.singleton "a" (.list [3, 4]) (.list [3, 4]),
          Dict.singleton "b" (.other "test") (.other "test")]] :=
  (chain_laws _ _ _
    (Dict.singleton_agree _ _ (fun _same => Value.agree_list [1, 2] [3, 4]))
    (Dict.singleton_agree _ _ (fun same => absurd same (by decide)))
    (Dict.singleton_agree _ _ (fun same => absurd same (by decide)))).2.1

end Merges

end ChampSim.Config

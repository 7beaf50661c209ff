/-
The LRU table keeps recency lists.

The reference keeps one recency list for each set and shares nothing with the
table but its shape and its projections. A sequence of calls has the same
results on both, from the table that the constructor makes.
-/

import ChampSim.Msl.LruRanking
import Mathlib.Logic.Function.Basic

set_option autoImplicit false

namespace ChampSim.Msl

variable {T Tag : Type} [DecidableEq Tag] [Inhabited T]

inductive LruCall (T : Type) where
  | checkHit (elem : T)
  | fill (elem : T)
  | invalidate (elem : T)
deriving DecidableEq, Repr

inductive LruResult (T : Type) where
  | rangeError
  | value (found : Option T)
  | filled
deriving DecidableEq, Repr

structure RecencyTable (T Tag : Type) where
  setProjection : T → Int
  tagProjection : T → Tag
  numSet : Nat
  numWay : Nat
  pairs : Nat → List (Tag × T)

namespace RecencyTable

omit [DecidableEq Tag] [Inhabited T] in
def empty (sets ways : Nat) (setProjection : T → Int) (tagProjection : T → Tag) :
    RecencyTable T Tag :=
  ⟨setProjection, tagProjection, sets, ways, fun _ => []⟩

/-- The set of an element, unless its set index is negative. -/
def setOf (reference : RecencyTable T Tag) (elem : T) : Option Nat :=
  let setIdx := reference.setProjection elem
  if setIdx < 0 then none else some (setIdx.toNat % reference.numSet)

def put (reference : RecencyTable T Tag) (set : Nat) (pairs : List (Tag × T)) :
    RecencyTable T Tag :=
  { reference with pairs := Function.update reference.pairs set pairs }

def call (reference : RecencyTable T Tag) : LruCall T → LruResult T × RecencyTable T Tag
  | .checkHit elem =>
      match reference.setOf elem with
      | none => (.rangeError, reference)
      | some set =>
          let (found, pairs) :=
            Recency.lookup (reference.tagProjection elem) (reference.pairs set)
          (.value found, reference.put set pairs)
  | .fill elem =>
      match reference.setOf elem with
      | none => (.rangeError, reference)
      | some set =>
          (.filled, reference.put set
            (Recency.insert reference.numWay (reference.tagProjection elem) elem
              (reference.pairs set)))
  | .invalidate elem =>
      match reference.setOf elem with
      | none => (.rangeError, reference)
      | some set =>
          let (found, pairs) :=
            Recency.remove (reference.tagProjection elem) (reference.pairs set)
          (.value found, reference.put set pairs)

def run (reference : RecencyTable T Tag) : List (LruCall T) →
    List (LruResult T) × RecencyTable T Tag
  | [] => ([], reference)
  | next :: rest =>
      let (result, after) := reference.call next
      let (results, last) := after.run rest
      (result :: results, last)

omit [Inhabited T] in
theorem call_shape (reference : RecencyTable T Tag) (next : LruCall T) :
    (reference.call next).2.numSet = reference.numSet ∧
      (reference.call next).2.numWay = reference.numWay := by
  cases next <;> (simp only [call]; split <;> exact ⟨rfl, rfl⟩)

omit [Inhabited T] in
theorem run_shape (reference : RecencyTable T Tag) (calls : List (LruCall T)) :
    (reference.run calls).2.numSet = reference.numSet ∧
      (reference.run calls).2.numWay = reference.numWay := by
  induction calls generalizing reference with
  | nil => exact ⟨rfl, rfl⟩
  | cons next rest ih =>
      obtain ⟨sets, ways⟩ := reference.call_shape next
      obtain ⟨setsLater, waysLater⟩ := ih (reference.call next).2
      exact ⟨setsLater.trans sets, waysLater.trans ways⟩

end RecencyTable

namespace LruTable

/-- A call of the table. A thrown error leaves it as it was. -/
def call (table : LruTable T Tag) : LruCall T → LruResult T × LruTable T Tag
  | .checkHit elem =>
      match table.checkHit elem with
      | none => (.rangeError, table)
      | some (found, next) => (.value found, next)
  | .fill elem =>
      match table.fill elem with
      | none => (.rangeError, table)
      | some next => (.filled, next)
  | .invalidate elem =>
      match table.invalidate elem with
      | none => (.rangeError, table)
      | some (found, next) => (.value found, next)

def run (table : LruTable T Tag) : List (LruCall T) → List (LruResult T) × LruTable T Tag
  | [] => ([], table)
  | next :: rest =>
      let (result, after) := table.call next
      let (results, last) := after.run rest
      (result :: results, last)

def TagsUnique (table : LruTable T Tag) : Prop :=
  ∀ set < table.numSet, (((table.span (set * table.numWay)).filter Block.valid).map
    (Block.tagOf table.tagProjection)).Nodup

section Spans

omit [DecidableEq Tag] [Inhabited T]

variable (table : LruTable T Tag)

theorem span_length (set : Nat) (inTable : set < table.numSet) :
    (table.span (set * table.numWay)).length = table.numWay := by
  unfold span
  rw [List.length_take, List.length_drop, table.sized, ← Nat.sub_mul]
  have atLeastOne : 1 * table.numWay ≤ (table.numSet - set) * table.numWay :=
    Nat.mul_le_mul_right table.numWay (by omega)
  omega

theorem span_store (set way : Nat) (value : Block T) :
    (table.store (set * table.numWay + way) value).span (set * table.numWay) =
      (table.span (set * table.numWay)).set way value := by
  change ((table.block.set (set * table.numWay + way) value).drop (set * table.numWay)).take
    table.numWay = _
  rw [List.drop_set, if_neg (by omega), Nat.add_sub_cancel_left, List.take_set]
  rfl

theorem span_store_of_ne (set other way : Nat) (value : Block T) (within : way < table.numWay)
    (differs : other ≠ set) :
    (table.store (set * table.numWay + way) value).span (other * table.numWay) =
      table.span (other * table.numWay) := by
  change ((table.block.set (set * table.numWay + way) value).drop (other * table.numWay)).take
    table.numWay = _
  rcases Nat.lt_or_gt_of_ne differs with before | after
  · have apart : (other + 1) * table.numWay ≤ set * table.numWay :=
      Nat.mul_le_mul_right table.numWay before
    rw [Nat.succ_mul] at apart
    rw [List.drop_set, if_neg (by omega), List.take_set_of_le (by omega)]
    rfl
  · have apart : (set + 1) * table.numWay ≤ other * table.numWay :=
      Nat.mul_le_mul_right table.numWay after
    rw [Nat.succ_mul] at apart
    rw [List.drop_set, if_pos (by omega)]
    rfl

end Spans

/-- The table has the shape of the reference, and each of its sets is ranked as
the recency list of that set. -/
structure Represents (table : LruTable T Tag) (reference : RecencyTable T Tag) : Prop where
  setProjection : reference.setProjection = table.setProjection
  tagProjection : reference.tagProjection = table.tagProjection
  numSet : reference.numSet = table.numSet
  numWay : reference.numWay = table.numWay
  ranked : ∀ set < table.numSet, ∃ order,
    Ranking table.tagProjection table.accessCount (table.span (set * table.numWay)) order ∧
      reference.pairs set = order.map (Block.pairOf table.tagProjection)

namespace Represents

variable {table : LruTable T Tag} {reference : RecencyTable T Tag}

omit [DecidableEq Tag] [Inhabited T] in
theorem count (represents : Represents table reference) : Represents table.count reference := by
  refine ⟨represents.setProjection, represents.tagProjection, represents.numSet,
    represents.numWay, ?_⟩
  intro set inTable
  obtain ⟨order, ranking, pairs⟩ := represents.ranked set inTable
  exact ⟨order, ranking.mono _ (Nat.le_succ _), pairs⟩

omit [DecidableEq Tag] [Inhabited T] in
/-- One block of a set was replaced, and the recency list of that set with it. -/
theorem store (represents : Represents table reference) (set way : Nat) (value : Block T)
    (within : way < table.numWay) (order : List (Block T))
    (ranking : Ranking table.tagProjection table.accessCount
      ((table.span (set * table.numWay)).set way value) order) :
    Represents (table.store (set * table.numWay + way) value)
      (reference.put set (order.map (Block.pairOf table.tagProjection))) := by
  refine ⟨represents.setProjection, represents.tagProjection, represents.numSet,
    represents.numWay, ?_⟩
  intro other inTable
  by_cases same : other = set
  · refine ⟨order, ?_, ?_⟩
    · rw [same]
      change Ranking table.tagProjection table.accessCount
        ((table.store (set * table.numWay + way) value).span (set * table.numWay)) order
      rw [span_store]
      exact ranking
    · rw [same]
      exact Function.update_self _ _ _
  · obtain ⟨orderOther, rankingOther, pairsOther⟩ := represents.ranked other inTable
    refine ⟨orderOther, ?_, ?_⟩
    · change Ranking table.tagProjection table.accessCount
        ((table.store (set * table.numWay + way) value).span (other * table.numWay)) orderOther
      rw [span_store_of_ne table set other way value within same]
      exact rankingOther
    · exact (Function.update_of_ne same _ _).trans pairsOther

omit [DecidableEq Tag] [Inhabited T] in
theorem put_same (represents : Represents table reference) (set : Nat) :
    Represents table (reference.put set (reference.pairs set)) := by
  refine ⟨represents.setProjection, represents.tagProjection, represents.numSet,
    represents.numWay, ?_⟩
  intro other inTable
  obtain ⟨order, ranking, pairs⟩ := represents.ranked other inTable
  refine ⟨order, ranking, ?_⟩
  change Function.update reference.pairs set (reference.pairs set) other = _
  rw [Function.update_eq_self]
  exact pairs

omit [DecidableEq Tag] [Inhabited T] in
/-- The set of an element is a set of the table, and its blocks start at the raw index. -/
theorem rawIdx (represents : Represents table reference) (elem : T) :
    (table.rawIdx elem = none ∧ reference.setOf elem = none) ∨
      ∃ set < table.numSet, table.rawIdx elem = some (set * table.numWay) ∧
        reference.setOf elem = some set := by
  unfold LruTable.rawIdx RecencyTable.setOf
  rw [represents.setProjection, represents.numSet]
  by_cases negative : table.setProjection elem < 0
  · exact Or.inl ⟨if_pos negative, if_pos negative⟩
  · exact Or.inr ⟨_, Nat.mod_lt _ table.positive, if_neg negative, if_neg negative⟩

omit [DecidableEq Tag] [Inhabited T] in
theorem place_lt (table : LruTable T Tag) {set index : Nat} {block : Block T}
    (inTable : set < table.numSet)
    (place : (table.span (set * table.numWay))[index]? = some block) : index < table.numWay := by
  obtain ⟨within, _value⟩ := List.getElem?_eq_some_iff.mp place
  rw [span_length table set inTable] at within
  exact within

theorem checkHit (represents : Represents table reference) (elem : T) :
    (reference.call (.checkHit elem)).1 = (table.call (.checkHit elem)).1 ∧
      Represents (table.call (.checkHit elem)).2 (reference.call (.checkHit elem)).2 := by
  simp only [LruTable.call, LruTable.checkHit, RecencyTable.call]
  rcases represents.rawIdx elem with ⟨noRaw, noSet⟩ | ⟨set, inTable, raw, isSet⟩
  · rw [noRaw, noSet]
    exact ⟨rfl, represents⟩
  · obtain ⟨order, ranking, pairs⟩ := represents.ranked set inTable
    rw [raw, isSet]
    simp only [Option.map_some, represents.tagProjection, Recency.lookup, pairs]
    cases found : Scan.findIf (Block.matchFunc table.tagProjection (table.tagProjection elem))
        (table.span (set * table.numWay)) with
    | none =>
        simp only [ranking.find_miss _ found]
        refine ⟨trivial, ?_⟩
        rw [← pairs]
        exact represents.put_same set
    | some hit =>
        obtain ⟨member, tags, place⟩ := ranking.find_hit _ hit found
        have pair := ranking.find_pair hit.item member
        rw [tags] at pair
        simp only [pair]
        refine ⟨rfl, ?_⟩
        have used := ranking.reuse place member hit.item.data rfl
        rw [tags] at used
        have stored := represents.count.store set hit.index _ (place_lt table inTable place) _ used
        rw [Ranking.others_pairs]
        exact stored

theorem fill (represents : Represents table reference) (elem : T) :
    (reference.call (.fill elem)).1 = (table.call (.fill elem)).1 ∧
      Represents (table.call (.fill elem)).2 (reference.call (.fill elem)).2 := by
  simp only [LruTable.call, LruTable.fill, RecencyTable.call]
  rcases represents.rawIdx elem with ⟨noRaw, noSet⟩ | ⟨set, inTable, raw, isSet⟩
  · rw [noRaw, noSet]
    exact ⟨rfl, represents⟩
  · obtain ⟨order, ranking, pairs⟩ := represents.ranked set inTable
    have ways := span_length table set inTable
    rw [raw, isSet]
    simp only [Option.map_some, represents.tagProjection, represents.numWay, pairs]
    refine ⟨trivial, ?_⟩
    by_cases none : table.span (set * table.numWay) = []
    · have noWay : table.numWay = 0 := by
        rw [← ways, none]
        rfl
      have noUse : order = [] := by
        apply List.length_eq_zero_iff.mp
        have bound := ranking.length_le
        rw [none] at bound
        exact Nat.le_zero.mp bound
      rw [none, noUse, noWay]
      change Represents table (reference.put set [])
      have same := represents.put_same set
      rw [pairs, noUse] at same
      exact same
    · obtain ⟨⟨miss, hit⟩, found, spans⟩ := Scan.minmaxElement_spans
        (Block.matchAndCheck_agrees (table.tagProjection elem)) _ none
      obtain ⟨next, filled, inserted⟩ := ranking.fill elem miss hit spans
      rw [ways] at inserted
      simp only [found, inserted]
      by_cases isMatch : table.tagProjection hit.item.data = table.tagProjection elem
      · rw [if_pos isMatch]
        rw [if_pos isMatch] at filled
        exact represents.count.store set hit.index _ (place_lt table inTable spans.largest) _ filled
      · rw [if_neg isMatch]
        rw [if_neg isMatch] at filled
        exact represents.count.store set miss.index _ (place_lt table inTable spans.smallest) _
          filled

theorem checkHit_of_value (represents : Represents table reference) {elem : T} {found : Option T}
    (value : (reference.call (.checkHit elem)).1 = .value found) :
    ∃ next, table.checkHit elem = some (found, next) ∧
      Represents next (reference.call (.checkHit elem)).2 := by
  obtain ⟨same, stays⟩ := represents.checkHit elem
  rw [value] at same
  simp only [LruTable.call] at same stays
  cases checked : table.checkHit elem with
  | none =>
      rw [checked] at same
      cases same
  | some result =>
      rw [checked] at same stays
      cases same
      exact ⟨result.2, rfl, stays⟩

theorem fill_of_filled (represents : Represents table reference) {elem : T}
    (filled : (reference.call (.fill elem)).1 = .filled) :
    ∃ next, table.fill elem = some next ∧ Represents next (reference.call (.fill elem)).2 := by
  obtain ⟨same, stays⟩ := represents.fill elem
  rw [filled] at same
  simp only [LruTable.call] at same stays
  cases joined : table.fill elem with
  | none =>
      rw [joined] at same
      cases same
  | some next =>
      rw [joined] at stays
      exact ⟨next, rfl, stays⟩

theorem invalidate (represents : Represents table reference) (elem : T) :
    (reference.call (.invalidate elem)).1 = (table.call (.invalidate elem)).1 ∧
      Represents (table.call (.invalidate elem)).2 (reference.call (.invalidate elem)).2 := by
  simp only [LruTable.call, LruTable.invalidate, RecencyTable.call]
  rcases represents.rawIdx elem with ⟨noRaw, noSet⟩ | ⟨set, inTable, raw, isSet⟩
  · rw [noRaw, noSet]
    exact ⟨rfl, represents⟩
  · obtain ⟨order, ranking, pairs⟩ := represents.ranked set inTable
    rw [raw, isSet]
    simp only [Option.map_some, represents.tagProjection, Recency.remove, pairs]
    cases found : Scan.findIf (Block.matchFunc table.tagProjection (table.tagProjection elem))
        (table.span (set * table.numWay)) with
    | none =>
        simp only [ranking.find_miss _ found]
        refine ⟨trivial, ?_⟩
        rw [← pairs]
        exact represents.put_same set
    | some hit =>
        obtain ⟨member, tags, place⟩ := ranking.find_hit _ hit found
        have pair := ranking.find_pair hit.item member
        rw [tags] at pair
        simp only [pair]
        refine ⟨rfl, ?_⟩
        have dropped := ranking.drop place member
        rw [tags] at dropped
        have stored := represents.store set hit.index _ (place_lt table inTable place) _ dropped
        rw [Ranking.others_pairs]
        exact stored

theorem call (represents : Represents table reference) (next : LruCall T) :
    (reference.call next).1 = (table.call next).1 ∧
      Represents (table.call next).2 (reference.call next).2 := by
  cases next with
  | checkHit elem => exact represents.checkHit elem
  | fill elem => exact represents.fill elem
  | invalidate elem => exact represents.invalidate elem

theorem run (represents : Represents table reference) (calls : List (LruCall T)) :
    (reference.run calls).1 = (table.run calls).1 ∧
      Represents (table.run calls).2 (reference.run calls).2 := by
  induction calls generalizing table reference with
  | nil => exact ⟨rfl, represents⟩
  | cons next rest ih =>
      obtain ⟨result, stays⟩ := represents.call next
      obtain ⟨results, last⟩ := ih stays
      exact ⟨congrArg₂ List.cons result results, last⟩

omit [DecidableEq Tag] [Inhabited T] in
theorem tagsUnique (represents : Represents table reference) : table.TagsUnique := by
  intro set inTable
  obtain ⟨order, ranking, _pairs⟩ := represents.ranked set inTable
  exact (ranking.same.map _).nodup_iff.mp ranking.unique

omit [DecidableEq Tag] [Inhabited T] in
theorem bounded (represents : Represents table reference) (set : Nat)
    (inTable : set < reference.numSet) :
    Recency.Bounded reference.numWay (reference.pairs set) := by
  rw [represents.numSet] at inTable
  obtain ⟨order, ranking, pairs⟩ := represents.ranked set inTable
  rw [pairs]
  constructor
  · rw [List.map_map]
    exact ranking.unique
  · rw [List.length_map, represents.numWay, ← span_length table set inTable]
    exact ranking.length_le

omit [DecidableEq Tag] in
theorem make (sets ways : Nat) (setProjection : T → Int) (tagProjection : T → Tag)
    (made : LruTable.make sets ways setProjection tagProjection = some table) :
    Represents table (RecencyTable.empty sets ways setProjection tagProjection) := by
  unfold LruTable.make at made
  split at made
  case isFalse => cases made
  case isTrue positive =>
    split at made
    case isTrue => cases made
    case isFalse =>
      cases made
      refine ⟨rfl, rfl, rfl, rfl, ?_⟩
      intro set inTable
      refine ⟨[], ⟨?_, List.Pairwise.nil, List.nodup_nil, ?_⟩, rfl⟩
      · apply List.Perm.of_eq
        symm
        apply List.filter_eq_nil_iff.mpr
        intro block member
        have present := List.mem_of_mem_drop (List.mem_of_mem_take member)
        rw [(List.mem_replicate.mp present).2]
        exact Bool.false_ne_true
      · intro block member
        cases member

end Represents

/-! ### The access counter -/

omit [Inhabited T] in
theorem checkHit_accessCount_le {table next : LruTable T Tag} {elem : T} {found : Option T}
    (checked : table.checkHit elem = some (found, next)) :
    next.accessCount ≤ table.accessCount + 1 := by
  obtain ⟨raw, _indexed, result⟩ := Option.map_eq_some_iff.mp checked
  split at result
  · cases result
    exact Nat.le_succ _
  · cases result
    exact Nat.le_refl _

omit [Inhabited T] in
theorem fill_accessCount_le {table next : LruTable T Tag} {elem : T}
    (filled : table.fill elem = some next) : next.accessCount ≤ table.accessCount + 1 := by
  obtain ⟨raw, _indexed, result⟩ := Option.map_eq_some_iff.mp filled
  dsimp only at result
  split at result
  · cases result
    exact Nat.le_succ _
  · split at result
    · cases result
      exact Nat.le_refl _
    · cases result
      exact Nat.le_refl _

theorem invalidate_accessCount {table next : LruTable T Tag} {elem : T} {found : Option T}
    (invalidated : table.invalidate elem = some (found, next)) :
    next.accessCount = table.accessCount := by
  obtain ⟨raw, _indexed, result⟩ := Option.map_eq_some_iff.mp invalidated
  split at result
  · cases result
    rfl
  · cases result
    rfl

theorem call_accessCount_le (table : LruTable T Tag) (next : LruCall T) :
    (table.call next).2.accessCount ≤ table.accessCount + 1 := by
  cases next with
  | checkHit elem =>
      simp only [call]
      split
      · exact Nat.le_succ _
      · rename_i checked
        exact checkHit_accessCount_le checked
  | fill elem =>
      simp only [call]
      split
      · exact Nat.le_succ _
      · rename_i filled
        exact fill_accessCount_le filled
  | invalidate elem =>
      simp only [call]
      split
      · exact Nat.le_succ _
      · rename_i invalidated
        exact (invalidate_accessCount invalidated).trans_le (Nat.le_succ _)

theorem run_accessCount_le (calls : List (LruCall T)) (table : LruTable T Tag) :
    (table.run calls).2.accessCount ≤ table.accessCount + calls.length := by
  induction calls generalizing table with
  | nil => exact Nat.le_refl _
  | cons next rest ih =>
      have once := call_accessCount_le table next
      have later := ih (table.call next).2
      have sameRun : (table.run (next :: rest)).2 = ((table.call next).2.run rest).2 := rfl
      rw [sameRun, List.length_cons]
      omega

omit [DecidableEq Tag] in
theorem make_accessCount {sets ways : Nat} {setProjection : T → Int} {tagProjection : T → Tag}
    {table : LruTable T Tag} (made : make sets ways setProjection tagProjection = some table) :
    table.accessCount = 0 := by
  unfold make at made
  split at made
  · split at made
    · cases made
    · cases made
      rfl
  · cases made

/-! ### Runs -/

/-- From a new table on, every sequence of calls has the results that it has on
the recency lists, which stay within the ways of a set; tags stay unique. The
access counter does not pass the number of calls, so that its 64 bits suffice
for all but the longest sequences. -/
theorem run_recency (sets ways : Nat) (setProjection : T → Int) (tagProjection : T → Tag)
    (table : LruTable T Tag)
    (made : make sets ways setProjection tagProjection = some table)
    (calls : List (LruCall T)) :
    let reference := RecencyTable.empty sets ways setProjection tagProjection
    (table.run calls).1 = (reference.run calls).1 ∧
      (∀ set < sets, Recency.Bounded ways ((reference.run calls).2.pairs set)) ∧
      (table.run calls).2.TagsUnique ∧
      (table.run calls).2.accessCount ≤ calls.length := by
  intro reference
  have start := Represents.make sets ways setProjection tagProjection made
  obtain ⟨results, represents⟩ := start.run calls
  obtain ⟨sameSets, sameWays⟩ := reference.run_shape calls
  refine ⟨results.symm, ?_, represents.tagsUnique, ?_⟩
  · intro set inTable
    have bounded := represents.bounded set (inTable.trans_eq sameSets.symm)
    rw [sameWays] at bounded
    exact bounded
  · have counted := run_accessCount_le calls table
    rw [make_accessCount made] at counted
    omega

/-- Calls of a set with two ways: the look-up of 4 makes 6 the least recent tag. -/
def lookupsAndFills : List (LruCall Int) :=
  [.fill 4, .fill 6, .checkHit 4, .fill 8, .checkHit 6, .checkHit 4, .invalidate 8, .checkHit 8,
    .invalidate (-1)]

theorem run_recency_evicts :
    ∃ table : LruTable Int Int, make 2 2 id id = some table ∧
      (table.run lookupsAndFills).1 =
        [.filled, .filled, .value (some 4), .filled, .value none, .value (some 4),
          .value (some 8), .value none, .rangeError] := by
  have positive : 0 < 2 := Nat.zero_lt_two
  have made : make 2 2 (id : Int → Int) (id : Int → Int) =
      some ⟨id, id, 2, 2, 0, List.replicate 4 default, positive, rfl⟩ := rfl
  have reference : ((RecencyTable.empty 2 2 (id : Int → Int) (id : Int → Int)).run
      lookupsAndFills).1 =
        [.filled, .filled, .value (some 4), .filled, .value none, .value (some 4),
          .value (some 8), .value none, .rangeError] := by
    decide +kernel
  exact ⟨_, made, (run_recency 2 2 id id _ made lookupsAndFills).1.trans reference⟩

end LruTable

end ChampSim.Msl

/-
The set-associative table of inc/msl/lru_table.h.

`none` as the outcome of an operation is the `std::range_error` for a negative
set index. The access counter is unbounded; the source counts in 64 bits.
-/

import ChampSim.Library.Scan
import Mathlib.Data.Nat.Basic

set_option autoImplicit false

namespace ChampSim.Msl

/-- `block_t`. A block that was never used, or was invalidated, has `lastUsed = 0`. -/
structure Block (T : Type) where
  lastUsed : Nat
  data : T
deriving DecidableEq, Repr

namespace Block

variable {T Tag : Type} [DecidableEq Tag]

/-- `block_t{}`. -/
instance [Inhabited T] : Inhabited (Block T) := ⟨⟨0, default⟩⟩

def valid (block : Block T) : Bool := decide (0 < block.lastUsed)

/-- `match_func`. -/
def matchFunc (tagProjection : T → Tag) (tag : Tag) (x : Block T) : Bool :=
  decide (0 < x.lastUsed) && decide (tagProjection x.data = tag)

/-- `match_and_check`. -/
def matchAndCheck (tagProjection : T → Tag) (tag : Tag) (x y : Block T) : Bool :=
  let xValid := decide (0 < x.lastUsed)
  let yValid := decide (0 < y.lastUsed)
  let xMatch := decide (tagProjection x.data = tag)
  let yMatch := decide (tagProjection y.data = tag)
  let cmpLru := decide (x.lastUsed < y.lastUsed)
  !xValid || (yValid && ((!xMatch && yMatch) || ((xMatch == yMatch) && cmpLru)))

end Block

/-- `lru_table`, with the set and tag projections that its constructor is given. -/
structure LruTable (T Tag : Type) where
  setProjection : T → Int
  tagProjection : T → Tag
  numSet : Nat
  numWay : Nat
  accessCount : Nat
  block : List (Block T)
  positive : 0 < numSet
  sized : block.length = numSet * numWay

namespace LruTable

variable {T Tag : Type} [DecidableEq Tag] [Inhabited T]

/-- The constructor, which throws when `sets` is no positive power of two. -/
def make (sets ways : Nat) (setProjection : T → Int) (tagProjection : T → Tag) :
    Option (LruTable T Tag) :=
  if positive : 0 < sets then
    if sets &&& (sets - 1) ≠ 0 then none
    else
      some
        { setProjection := setProjection
          tagProjection := tagProjection
          numSet := sets
          numWay := ways
          accessCount := 0
          block := List.replicate (sets * ways) default
          positive := positive
          sized := List.length_replicate }
  else none

omit [DecidableEq Tag] [Inhabited T] in
/-- The index of the first block of an element's set, from `get_set_span`. -/
def rawIdx (table : LruTable T Tag) (elem : T) : Option Nat :=
  let setIdx := table.setProjection elem
  if setIdx < 0 then none
  else some (setIdx.toNat % table.numSet * table.numWay)

def span (table : LruTable T Tag) (raw : Nat) : List (Block T) :=
  (table.block.drop raw).take table.numWay

/-- `*it = value`, for an iterator into the table. -/
def store (table : LruTable T Tag) (index : Nat) (value : Block T) : LruTable T Tag :=
  { table with
    block := table.block.set index value
    sized := by rw [List.length_set, table.sized] }

/-- `++access_count`. -/
def count (table : LruTable T Tag) : LruTable T Tag :=
  { table with accessCount := table.accessCount + 1 }

def checkHit (table : LruTable T Tag) (elem : T) : Option (Option T × LruTable T Tag) :=
  (table.rawIdx elem).map fun raw =>
    match Scan.findIf (Block.matchFunc table.tagProjection (table.tagProjection elem))
        (table.span raw) with
    | none => (none, table)
    | some hit =>
        (some hit.item.data,
          table.count.store (raw + hit.index) ⟨table.accessCount + 1, hit.item.data⟩)

def fill (table : LruTable T Tag) (elem : T) : Option (LruTable T Tag) :=
  (table.rawIdx elem).map fun raw =>
    let tag := table.tagProjection elem
    match Scan.minmaxElement (Block.matchAndCheck table.tagProjection tag) (table.span raw) with
    | none => table
    | some (miss, hit) =>
        if table.tagProjection hit.item.data = tag then
          table.count.store (raw + hit.index) ⟨table.accessCount + 1, elem⟩
        else table.count.store (raw + miss.index) ⟨table.accessCount + 1, elem⟩

def invalidate (table : LruTable T Tag) (elem : T) : Option (Option T × LruTable T Tag) :=
  (table.rawIdx elem).map fun raw =>
    match Scan.findIf (Block.matchFunc table.tagProjection (table.tagProjection elem))
        (table.span raw) with
    | none => (none, table)
    | some hit => (some hit.item.data, table.store (raw + hit.index) default)

omit [DecidableEq Tag] [Inhabited T] in
theorem rawIdx_isSome {table : LruTable T Tag} {elem : T} (indexed : 0 ≤ table.setProjection elem) :
    ∃ raw, table.rawIdx elem = some raw :=
  ⟨_, if_neg (Int.not_lt.mpr indexed)⟩

omit [Inhabited T] in
theorem checkHit_isSome {table : LruTable T Tag} {elem : T}
    (indexed : 0 ≤ table.setProjection elem) :
    ∃ found next, table.checkHit elem = some (found, next) ∧
      next.setProjection = table.setProjection := by
  obtain ⟨raw, isRaw⟩ := rawIdx_isSome indexed
  unfold checkHit
  rw [isRaw, Option.map_some]
  split
  · exact ⟨none, table, rfl, rfl⟩
  · exact ⟨_, _, rfl, rfl⟩

omit [Inhabited T] in
theorem fill_isSome {table : LruTable T Tag} {elem : T} (indexed : 0 ≤ table.setProjection elem) :
    ∃ next, table.fill elem = some next ∧ next.setProjection = table.setProjection := by
  obtain ⟨raw, isRaw⟩ := rawIdx_isSome indexed
  unfold fill
  rw [isRaw, Option.map_some]
  dsimp only
  split
  · exact ⟨table, rfl, rfl⟩
  · split
    · exact ⟨_, rfl, rfl⟩
    · exact ⟨_, rfl, rfl⟩

/-! ### What a table holds -/

def Holds (Property : T → Prop) (table : LruTable T Tag) : Prop :=
  ∀ block ∈ table.block, 0 < block.lastUsed → Property block.data

variable {Property : T → Prop} {table next : LruTable T Tag} {elem : T}

omit [DecidableEq Tag] [Inhabited T] in
theorem Holds.store (holds : Holds Property table) (index : Nat) (value : Block T)
    (kept : Property value.data) : Holds Property (table.count.store index value) := by
  intro block member used
  rcases List.mem_or_eq_of_mem_set member with before | written
  · exact holds block before used
  · rw [written]
    exact kept

omit [DecidableEq Tag] in
theorem make_holds {sets ways : Nat} {setProjection : T → Int} {tagProjection : T → Tag}
    (made : make sets ways setProjection tagProjection = some table) : Holds Property table := by
  unfold make at made
  split at made
  case isTrue =>
    split at made
    case isTrue => cases made
    case isFalse =>
      cases made
      intro block member used
      rw [List.eq_of_mem_replicate member] at used
      exact absurd used (Nat.lt_irrefl 0)
  case isFalse => cases made

omit [Inhabited T] in
theorem checkHit_holds (holds : Holds Property table) {found : Option T}
    (checked : table.checkHit elem = some (found, next)) :
    (∀ value, found = some value → Property value) ∧ Holds Property next := by
  obtain ⟨raw, _isRaw, result⟩ := Option.map_eq_some_iff.mp checked
  split at result
  case h_1 =>
    cases result
    refine ⟨?_, holds⟩
    intro value impossible
    cases impossible
  case h_2 hit search =>
    cases result
    obtain ⟨placed, matched⟩ := Scan.findIf_some _ _ _ search
    have member : hit.item ∈ table.block :=
      List.drop_subset _ _ (List.take_subset _ _ (List.mem_of_getElem? placed))
    have used : 0 < hit.item.lastUsed := by
      unfold Block.matchFunc at matched
      rw [Bool.and_eq_true, decide_eq_true_eq] at matched
      exact matched.1
    have kept := holds hit.item member used
    refine ⟨?_, holds.store _ _ kept⟩
    intro value same
    cases same
    exact kept

omit [Inhabited T] in
theorem fill_holds (holds : Holds Property table) (kept : Property elem)
    (filled : table.fill elem = some next) : Holds Property next := by
  obtain ⟨raw, _isRaw, result⟩ := Option.map_eq_some_iff.mp filled
  dsimp only at result
  split at result
  case h_1 =>
    cases result
    exact holds
  case h_2 =>
    split at result
    case isTrue =>
      cases result
      exact holds.store _ _ kept
    case isFalse =>
      cases result
      exact holds.store _ _ kept

end LruTable

end ChampSim.Msl

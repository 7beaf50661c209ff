/-
The event counter of the statistics: two vectors, the sorted keys and their
values, kept in step by `std::lower_bound`, and the finite map they stand for.

A value is a `long`. Any type with a zero, a one, sums and differences takes its
place, so that the results hold of integers as of words that wrap.
-/

import ChampSim.Library.SortedKeys
import Mathlib.Algebra.BigOperators.Group.Finset.Basic
import Mathlib.Algebra.Group.Hom.Basic
import Mathlib.Algebra.Ring.Int.Defs

set_option autoImplicit false

namespace ChampSim.Stats

open SortedKeys

structure EventCounter (Key Value : Type) where
  keys : List Key
  values : List Value
deriving DecidableEq, Repr

namespace EventCounter

variable {Key Value : Type} [LinearOrder Key] [AddCommGroupWithOne Value]

def create : EventCounter Key Value := { keys := [], values := [] }

/-- The distance of both iterators from the beginning of their vectors. -/
def getIter (counter : EventCounter Key Value) (key : Key) : Nat := lowerBound counter.keys key

/-- The key iterator is not at the end and stands at the key. -/
def isAt (counter : EventCounter Key Value) (key : Key) : Bool :=
  counter.keys[counter.getIter key]? = some key

def allocate (counter : EventCounter Key Value) (key : Key) : EventCounter Key Value :=
  if counter.isAt key then counter
  else
    { keys := counter.keys.insertIdx (counter.getIter key) key
      values := counter.values.insertIdx (counter.getIter key) 0 }

/-- Undefined when there is no key to erase, or no value. -/
def deallocate (counter : EventCounter Key Value) (key : Key) : Option (EventCounter Key Value) :=
  if counter.getIter key < counter.keys.length ∧ counter.getIter key < counter.values.length then
    some
      { keys := counter.keys.eraseIdx (counter.getIter key)
        values := counter.values.eraseIdx (counter.getIter key) }
  else none

/-- An assignment through the value iterator, undefined at the end. -/
def assign (counter : EventCounter Key Value) (key : Key) (change : Value → Value) :
    Option (EventCounter Key Value) :=
  (counter.values[counter.getIter key]?).map (fun value =>
    { counter with values := counter.values.set (counter.getIter key) (change value) })

def increment (counter : EventCounter Key Value) (key : Key) : Option (EventCounter Key Value) :=
  (counter.allocate key).assign key (fun value => value + 1)

def set (counter : EventCounter Key Value) (key : Key) (value : Value) :
    Option (EventCounter Key Value) :=
  (counter.allocate key).assign key (fun _ => value)

/-- `at`, undefined at the end. -/
def atKey (counter : EventCounter Key Value) (key : Key) : Option Value :=
  counter.values[counter.getIter key]?

/-- The vectors are as long as each other, so that a key that is found has a value. -/
def valueOr (counter : EventCounter Key Value) (key : Key) (value : Value) : Value :=
  if counter.isAt key then counter.values.getD (counter.getIter key) value else value

def total (counter : EventCounter Key Value) : Value := counter.values.sum

def getKeys (counter : EventCounter Key Value) : List Key := counter.keys

/-- `operator+=` and `operator+`. -/
def add (lhs rhs : EventCounter Key Value) : EventCounter Key Value :=
  { lhs with
    values := List.zipWith (fun value key => value + rhs.valueOr key 0) lhs.values lhs.keys }

/-- `operator-=` and `operator-`. -/
def sub (lhs rhs : EventCounter Key Value) : EventCounter Key Value :=
  { lhs with
    values := List.zipWith (fun value key => value - rhs.valueOr key 0) lhs.values lhs.keys }

end EventCounter

/-! ### The finite map -/

/-- A finite map to counts, zero outside of its domain. -/
structure Tally (Key Value : Type) [Zero Value] where
  domain : Finset Key
  count : Key → Value
  outside : ∀ key, key ∉ domain → count key = 0

namespace Tally

variable {Key Value : Type} [DecidableEq Key] [AddCommGroupWithOne Value]

def empty : Tally Key Value :=
  { domain := ∅
    count := fun _ => 0
    outside := fun _key _absent => rfl }

def allocate (tally : Tally Key Value) (key : Key) : Tally Key Value :=
  { domain := insert key tally.domain
    count := tally.count
    outside := fun other absent =>
      tally.outside other (fun member => absent (Finset.mem_insert_of_mem member)) }

def assign (tally : Tally Key Value) (key : Key) (value : Value) : Tally Key Value :=
  { domain := insert key tally.domain
    count := Function.update tally.count key value
    outside := by
      intro other absent
      have different : other ≠ key := fun same => absent (Finset.mem_insert.mpr (Or.inl same))
      rw [Function.update_of_ne different]
      exact tally.outside other (fun member => absent (Finset.mem_insert_of_mem member)) }

def remove (tally : Tally Key Value) (key : Key) : Tally Key Value :=
  { domain := tally.domain.erase key
    count := Function.update tally.count key 0
    outside := by
      intro other absent
      by_cases same : other = key
      · rw [same, Function.update_self]
      · rw [Function.update_of_ne same]
        exact tally.outside other
          (fun member => absent (Finset.mem_erase_of_ne_of_mem same member)) }

/-- The counts of both maps, those of the second one changed. -/
def combine (change : Value →+ Value) (tally other : Tally Key Value) : Tally Key Value :=
  { domain := tally.domain ∪ other.domain
    count := fun key => tally.count key + change (other.count key)
    outside := by
      intro key absent
      rw [Finset.mem_union, not_or] at absent
      rw [tally.outside key absent.1, other.outside key absent.2, map_zero, add_zero] }

def restrict (tally : Tally Key Value) (keys : Finset Key) : Tally Key Value :=
  { domain := tally.domain ∩ keys
    count := fun key => if key ∈ keys then tally.count key else 0
    outside := by
      intro key absent
      split
      · rename_i member
        exact tally.outside key (fun present => absent (Finset.mem_inter.mpr ⟨present, member⟩))
      · rfl }

def valueOr (tally : Tally Key Value) (key : Key) (value : Value) : Value :=
  if key ∈ tally.domain then tally.count key else value

def total (tally : Tally Key Value) : Value := ∑ key ∈ tally.domain, tally.count key

end Tally

/-! ### What a counter stands for -/

structure Refines {Key Value : Type} [LinearOrder Key] [AddCommGroupWithOne Value]
    (counter : EventCounter Key Value) (tally : Tally Key Value) : Prop where
  sorted : counter.keys.Pairwise (· < ·)
  present : ∀ key, key ∈ counter.keys ↔ key ∈ tally.domain
  values : counter.values = counter.keys.map tally.count

namespace Refines

variable {Key Value : Type} [LinearOrder Key] [AddCommGroupWithOne Value]
variable {counter other : EventCounter Key Value} {tally otherTally : Tally Key Value}

theorem distinct (refines : Refines counter tally) : counter.keys.Nodup :=
  refines.sorted.imp (fun below => below.ne)

theorem isAt_iff (refines : Refines counter tally) (key : Key) :
    counter.isAt key = true ↔ key ∈ tally.domain := by
  unfold EventCounter.isAt
  rw [decide_eq_true_iff]
  exact (lowerBound_found refines.sorted key).trans (refines.present key)

theorem stands (refines : Refines counter tally) {key : Key} (member : key ∈ tally.domain) :
    counter.keys[counter.getIter key]? = some key :=
  (lowerBound_found refines.sorted key).mpr ((refines.present key).mpr member)

theorem atKey_eq (refines : Refines counter tally) {key : Key} (member : key ∈ tally.domain) :
    counter.atKey key = some (tally.count key) := by
  unfold EventCounter.atKey
  rw [refines.values, List.getElem?_map, refines.stands member]
  rfl

theorem valueOr_eq (refines : Refines counter tally) (key : Key) (value : Value) :
    counter.valueOr key value = tally.valueOr key value := by
  unfold EventCounter.valueOr Tally.valueOr
  by_cases member : key ∈ tally.domain
  · have read := refines.atKey_eq member
    unfold EventCounter.atKey at read
    rw [if_pos ((refines.isAt_iff key).mpr member), if_pos member, List.getD_eq_getElem?_getD, read]
    rfl
  · rw [if_neg (fun found => member ((refines.isAt_iff key).mp found)), if_neg member]

theorem valueOr_zero (refines : Refines counter tally) (key : Key) :
    counter.valueOr key 0 = tally.count key := by
  rw [refines.valueOr_eq]
  unfold Tally.valueOr
  split
  · rfl
  · rename_i absent
    exact (tally.outside key absent).symm

theorem domain_eq (refines : Refines counter tally) : counter.keys.toFinset = tally.domain := by
  ext key
  rw [List.mem_toFinset]
  exact refines.present key

theorem total_eq (refines : Refines counter tally) : counter.total = tally.total := by
  unfold EventCounter.total Tally.total
  rw [refines.values, ← refines.domain_eq, List.sum_toFinset _ refines.distinct]

theorem create : Refines (EventCounter.create : EventCounter Key Value) Tally.empty where
  sorted := List.Pairwise.nil
  present := fun _key => iff_of_false List.not_mem_nil (Finset.notMem_empty _)
  values := rfl

theorem allocate (refines : Refines counter tally) (key : Key) :
    Refines (counter.allocate key) (tally.allocate key) := by
  unfold EventCounter.allocate
  split
  · rename_i found
    have member := (refines.isAt_iff key).mp found
    have same : insert key tally.domain = tally.domain := Finset.insert_eq_of_mem member
    refine ⟨refines.sorted, fun other => ?_, refines.values⟩
    change other ∈ counter.keys ↔ other ∈ insert key tally.domain
    rw [same]
    exact refines.present other
  · rename_i notFound
    have missing : key ∉ tally.domain := fun member => notFound ((refines.isAt_iff key).mpr member)
    have absent : key ∉ counter.keys := fun member => missing ((refines.present key).mp member)
    refine ⟨insert_sorted refines.sorted absent, fun other => ?_, ?_⟩
    · exact (mem_insert counter.keys key other).trans
        ((or_congr_right (refines.present other)).trans Finset.mem_insert.symm)
    · change counter.values.insertIdx (counter.getIter key) 0 =
        (counter.keys.insertIdx (counter.getIter key) key).map tally.count
      rw [List.map_insertIdx, tally.outside key missing, refines.values]

theorem deallocate (refines : Refines counter tally) {key : Key} (member : key ∈ counter.keys) :
    ∃ next, counter.deallocate key = some next ∧ Refines next (tally.remove key) := by
  have stands := refines.stands ((refines.present key).mp member)
  have within : counter.getIter key < counter.keys.length :=
    (List.getElem?_eq_some_iff.mp stands).choose
  have long : counter.getIter key < counter.values.length := by
    rw [refines.values, List.length_map]
    exact within
  refine ⟨_, if_pos ⟨within, long⟩, ⟨?_, fun other => ?_, ?_⟩⟩
  · exact refines.sorted.sublist (List.eraseIdx_sublist _ _)
  · rw [mem_erase refines.distinct stands, refines.present]
    exact Finset.mem_erase.symm
  · change counter.values.eraseIdx (counter.getIter key) =
      (counter.keys.eraseIdx (counter.getIter key)).map (Function.update tally.count key 0)
    rw [refines.values, List.eraseIdx_map]
    apply List.map_congr_left
    intro other kept
    have different := ((mem_erase refines.distinct stands other).mp kept).1
    rw [Function.update_of_ne different]

theorem assign (refines : Refines counter tally) (key : Key) (change : Value → Value) :
    ∃ next, (counter.allocate key).assign key change = some next ∧
      Refines next (tally.assign key (change (tally.count key))) := by
  have allocated := refines.allocate key
  have member : key ∈ (tally.allocate key).domain := Finset.mem_insert_self key tally.domain
  have read : (counter.allocate key).values[(counter.allocate key).getIter key]? =
      some (tally.count key) := allocated.atKey_eq member
  have assigned : (counter.allocate key).assign key change = some
      { counter.allocate key with
        values := (counter.allocate key).values.set ((counter.allocate key).getIter key)
          (change (tally.count key)) } := by
    unfold EventCounter.assign
    rw [read]
    rfl
  refine ⟨_, assigned, ⟨allocated.sorted, allocated.present, ?_⟩⟩
  change (counter.allocate key).values.set _ _ = _
  rw [allocated.values]
  exact map_update allocated.distinct tally.count (allocated.stands member) _

/-- The counts of a second counter, changed, are added for the keys of the first. -/
theorem combine (refines : Refines counter tally) (otherRefines : Refines other otherTally)
    (change : Value →+ Value) :
    Refines
      { counter with
        values := List.zipWith (fun value key => value + change (other.valueOr key 0))
          counter.values counter.keys }
      ((tally.combine change otherTally).restrict tally.domain) := by
  refine ⟨refines.sorted, fun key => ?_, ?_⟩
  · change key ∈ counter.keys ↔ key ∈ (tally.domain ∪ otherTally.domain) ∩ tally.domain
    rw [Finset.union_inter_cancel_left]
    exact refines.present key
  · change List.zipWith _ counter.values counter.keys = counter.keys.map (fun key =>
      if key ∈ tally.domain then tally.count key + change (otherTally.count key) else 0)
    rw [refines.values, List.zipWith_map_left, List.zipWith_self]
    apply List.map_congr_left
    intro key member
    rw [if_pos ((refines.present key).mp member), otherRefines.valueOr_zero]

theorem add (refines : Refines counter tally) (otherRefines : Refines other otherTally) :
    Refines (counter.add other)
      ((tally.combine (AddMonoidHom.id Value) otherTally).restrict tally.domain) :=
  refines.combine otherRefines (AddMonoidHom.id Value)

theorem sub (refines : Refines counter tally) (otherRefines : Refines other otherTally) :
    Refines (counter.sub other)
      ((tally.combine (-AddMonoidHom.id Value) otherTally).restrict tally.domain) := by
  have combined := refines.combine otherRefines (-AddMonoidHom.id Value)
  unfold EventCounter.sub
  simp only [sub_eq_add_neg]
  exact combined

theorem of_restrict {keys : Finset Key} (refines : Refines counter (tally.restrict keys))
    (all : tally.domain ⊆ keys) : Refines counter tally := by
  have domain : tally.domain ∩ keys = tally.domain := Finset.inter_eq_left.mpr all
  have present : ∀ key, key ∈ counter.keys ↔ key ∈ tally.domain := by
    intro key
    rw [← domain]
    exact refines.present key
  refine ⟨refines.sorted, present, ?_⟩
  rw [refines.values]
  apply List.map_congr_left
  intro key member
  exact if_pos (all ((present key).mp member))

theorem of_covered {change : Value →+ Value} {result : EventCounter Key Value}
    (refines : Refines counter tally) (otherRefines : Refines other otherTally)
    (made : Refines result ((tally.combine change otherTally).restrict tally.domain))
    (covered : ∀ key ∈ other.keys, key ∈ counter.keys) :
    Refines result (tally.combine change otherTally) := by
  apply made.of_restrict
  apply Finset.union_subset (Finset.Subset.refl _)
  intro key member
  exact (refines.present key).mp (covered key ((otherRefines.present key).mpr member))

end Refines

/-! ### Histories of counters -/

/-- How a counter was made, the counters that were added or subtracted included. -/
inductive History (Key Value : Type) where
  | create
  | allocate (history : History Key Value) (key : Key)
  | deallocate (history : History Key Value) (key : Key)
  | increment (history : History Key Value) (key : Key)
  | set (history : History Key Value) (key : Key) (value : Value)
  | add (history rhs : History Key Value)
  | sub (history rhs : History Key Value)
deriving DecidableEq, Repr

namespace History

variable {Key Value : Type} [LinearOrder Key] [AddCommGroupWithOne Value]

def counter : History Key Value → Option (EventCounter Key Value)
  | create => some EventCounter.create
  | allocate history key => history.counter.map (fun counter => counter.allocate key)
  | deallocate history key => history.counter.bind (fun counter => counter.deallocate key)
  | increment history key => history.counter.bind (fun counter => counter.increment key)
  | set history key value => history.counter.bind (fun counter => counter.set key value)
  | add history rhs =>
      history.counter.bind (fun counter => rhs.counter.map (fun other => counter.add other))
  | sub history rhs =>
      history.counter.bind (fun counter => rhs.counter.map (fun other => counter.sub other))

def tally : History Key Value → Tally Key Value
  | create => Tally.empty
  | allocate history key => history.tally.allocate key
  | deallocate history key => history.tally.remove key
  | increment history key => history.tally.assign key (history.tally.count key + 1)
  | set history key value => history.tally.assign key value
  | add history rhs => history.tally.combine (AddMonoidHom.id Value) rhs.tally
  | sub history rhs => history.tally.combine (-AddMonoidHom.id Value) rhs.tally

def Allowed : History Key Value → Prop
  | create => True
  | allocate history _ => history.Allowed
  | deallocate history key =>
      history.Allowed ∧ ∀ made, history.counter = some made → key ∈ made.keys
  | increment history _ => history.Allowed
  | set history _ _ => history.Allowed
  | add history rhs => history.Allowed ∧ rhs.Allowed
  | sub history rhs => history.Allowed ∧ rhs.Allowed

/-- The counter of the second history has no key that the counter of the first has not. -/
def KeysWithin (history rhs : History Key Value) : Prop :=
  ∀ left right, history.counter = some left → rhs.counter = some right →
    ∀ key ∈ right.keys, key ∈ left.keys

/-- Each counter that was added or subtracted had keys of the other one only. -/
def CoversThroughout : History Key Value → Prop
  | create => True
  | allocate history _ => history.CoversThroughout
  | deallocate history _ => history.CoversThroughout
  | increment history _ => history.CoversThroughout
  | set history _ _ => history.CoversThroughout
  | add history rhs =>
      history.CoversThroughout ∧ rhs.CoversThroughout ∧ history.KeysWithin rhs
  | sub history rhs =>
      history.CoversThroughout ∧ rhs.CoversThroughout ∧ history.KeysWithin rhs

theorem exists_refines (history : History Key Value) (allowed : history.Allowed) :
    ∃ made map, history.counter = some made ∧ Refines made map := by
  induction history with
  | create => exact ⟨_, _, rfl, Refines.create⟩
  | allocate history key ih =>
      obtain ⟨counter, map, ran, refines⟩ := ih allowed
      exact ⟨_, _, by rw [History.counter, ran]; rfl, refines.allocate key⟩
  | deallocate history key ih =>
      obtain ⟨counter, map, ran, refines⟩ := ih allowed.1
      obtain ⟨next, erased, nextRefines⟩ := refines.deallocate (allowed.2 counter ran)
      exact ⟨next, _, by rw [History.counter, ran]; exact erased, nextRefines⟩
  | increment history key ih =>
      obtain ⟨counter, map, ran, refines⟩ := ih allowed
      obtain ⟨next, assigned, nextRefines⟩ := refines.assign key (fun value => value + 1)
      exact ⟨next, _, by rw [History.counter, ran]; exact assigned, nextRefines⟩
  | set history key value ih =>
      obtain ⟨counter, map, ran, refines⟩ := ih allowed
      obtain ⟨next, assigned, nextRefines⟩ := refines.assign key (fun _ => value)
      exact ⟨next, _, by rw [History.counter, ran]; exact assigned, nextRefines⟩
  | add history rhs ih ihRhs =>
      obtain ⟨counter, map, ran, refines⟩ := ih allowed.1
      obtain ⟨other, otherMap, otherRan, otherRefines⟩ := ihRhs allowed.2
      exact ⟨_, _, by rw [History.counter, ran, otherRan]; rfl, refines.add otherRefines⟩
  | sub history rhs ih ihRhs =>
      obtain ⟨counter, map, ran, refines⟩ := ih allowed.1
      obtain ⟨other, otherMap, otherRan, otherRefines⟩ := ihRhs allowed.2
      exact ⟨_, _, by rw [History.counter, ran, otherRan]; rfl, refines.sub otherRefines⟩

/-- The counter of a covered history stands for the map of the history. -/
theorem counter_refines (history : History Key Value) (allowed : history.Allowed)
    (covered : history.CoversThroughout) :
    ∃ made, history.counter = some made ∧ Refines made history.tally := by
  induction history with
  | create => exact ⟨_, rfl, Refines.create⟩
  | allocate history key ih =>
      obtain ⟨counter, ran, refines⟩ := ih allowed covered
      exact ⟨_, by rw [History.counter, ran]; rfl, refines.allocate key⟩
  | deallocate history key ih =>
      obtain ⟨counter, ran, refines⟩ := ih allowed.1 covered
      obtain ⟨next, erased, nextRefines⟩ := refines.deallocate (allowed.2 counter ran)
      exact ⟨next, by rw [History.counter, ran]; exact erased, nextRefines⟩
  | increment history key ih =>
      obtain ⟨counter, ran, refines⟩ := ih allowed covered
      obtain ⟨next, assigned, nextRefines⟩ := refines.assign key (fun value => value + 1)
      exact ⟨next, by rw [History.counter, ran]; exact assigned, nextRefines⟩
  | set history key value ih =>
      obtain ⟨counter, ran, refines⟩ := ih allowed covered
      obtain ⟨next, assigned, nextRefines⟩ := refines.assign key (fun _ => value)
      exact ⟨next, by rw [History.counter, ran]; exact assigned, nextRefines⟩
  | add history rhs ih ihRhs =>
      obtain ⟨coveredLeft, coveredRight, within⟩ := covered
      obtain ⟨counter, ran, refines⟩ := ih allowed.1 coveredLeft
      obtain ⟨other, otherRan, otherRefines⟩ := ihRhs allowed.2 coveredRight
      exact ⟨_, by rw [History.counter, ran, otherRan]; rfl,
        refines.of_covered otherRefines (refines.add otherRefines)
          (within counter other ran otherRan)⟩
  | sub history rhs ih ihRhs =>
      obtain ⟨coveredLeft, coveredRight, within⟩ := covered
      obtain ⟨counter, ran, refines⟩ := ih allowed.1 coveredLeft
      obtain ⟨other, otherRan, otherRefines⟩ := ihRhs allowed.2 coveredRight
      exact ⟨_, by rw [History.counter, ran, otherRan]; rfl,
        refines.of_covered otherRefines (refines.sub otherRefines)
          (within counter other ran otherRan)⟩

end History

/-! ### Sums and differences -/

namespace EventCounter

variable {Key Value : Type} [LinearOrder Key] [AddCommGroupWithOne Value]

/-- The counter agrees with the map in all that can be read from it. -/
structure Agrees (counter : EventCounter Key Value) (map : Tally Key Value) : Prop where
  sorted : counter.keys.Pairwise (· < ·)
  aligned : counter.values.length = counter.keys.length
  getKeys : ∀ key, key ∈ counter.getKeys ↔ key ∈ map.domain
  atKey : ∀ key ∈ map.domain, counter.atKey key = some (map.count key)
  valueOr : ∀ key value, counter.valueOr key value = map.valueOr key value
  total : counter.total = map.total

theorem agrees_of_refines {counter : EventCounter Key Value} {map : Tally Key Value}
    (refines : Refines counter map) : Agrees counter map where
  sorted := refines.sorted
  aligned := by rw [refines.values, List.length_map]
  getKeys := refines.present
  atKey := fun _key member => refines.atKey_eq member
  valueOr := refines.valueOr_eq
  total := refines.total_eq

/-- The sum counts for every key what both counters count, and so does its total. -/
def Adds (lhs rhs : EventCounter Key Value) : Prop :=
  (∀ key, (lhs.add rhs).valueOr key 0 = lhs.valueOr key 0 + rhs.valueOr key 0) ∧
    (lhs.add rhs).total = lhs.total + rhs.total

def Subtracts (lhs rhs : EventCounter Key Value) : Prop :=
  (∀ key, (lhs.sub rhs).valueOr key 0 = lhs.valueOr key 0 - rhs.valueOr key 0) ∧
    (lhs.sub rhs).total = lhs.total - rhs.total

/-- The second counter counts nothing for a key that the first one does not have. -/
def Covers (lhs rhs : EventCounter Key Value) : Prop :=
  ∀ key ∈ rhs.keys, key ∉ lhs.keys → rhs.valueOr key 0 = 0

end EventCounter

namespace Tally

variable {Key Value : Type} [DecidableEq Key] [AddCommGroupWithOne Value]

/-- Every count of the second map is for a key of the first. -/
def Within (map other : Tally Key Value) : Prop := ∀ key, key ∉ map.domain → other.count key = 0

/-- The counts of the keys of the first map are all counts just when the second is within it. -/
theorem restrict_count_iff {change : Value →+ Value} (injective : Function.Injective change)
    (map other : Tally Key Value) :
    (∀ key, ((map.combine change other).restrict map.domain).count key =
        map.count key + change (other.count key)) ↔ map.Within other := by
  constructor
  · intro counts key absent
    have count := counts key
    change (if key ∈ map.domain then map.count key + change (other.count key) else 0) = _ at count
    rw [if_neg absent, map.outside key absent, zero_add] at count
    exact injective (count.symm.trans (map_zero change).symm)
  · intro within key
    change (if key ∈ map.domain then map.count key + change (other.count key) else 0) = _
    split
    · rfl
    · rename_i absent
      rw [map.outside key absent, within key absent, map_zero, add_zero]

omit [DecidableEq Key] in
theorem total_superset (map : Tally Key Value) {keys : Finset Key} (larger : map.domain ⊆ keys) :
    map.total = ∑ key ∈ keys, map.count key :=
  Finset.sum_subset larger (fun key _member absent => map.outside key absent)

theorem restrict_total (change : Value →+ Value) (map other : Tally Key Value)
    (within : map.Within other) :
    ((map.combine change other).restrict map.domain).total =
      map.total + change other.total := by
  have outside : ∀ key ∈ map.domain ∪ other.domain, key ∉ map.domain → other.count key = 0 :=
    fun key _member => within key
  have otherTotal : other.total = ∑ key ∈ map.domain, other.count key :=
    (other.total_superset Finset.subset_union_right).trans
      (Finset.sum_subset Finset.subset_union_left outside).symm
  have larger : ((map.combine change other).restrict map.domain).domain ⊆ map.domain :=
    Finset.inter_subset_right
  have whole := ((map.combine change other).restrict map.domain).total_superset larger
  rw [whole, otherTotal, map_sum]
  unfold total
  rw [← Finset.sum_add_distrib]
  apply Finset.sum_congr rfl
  intro key member
  exact if_pos member

end Tally

namespace Refines

variable {Key Value : Type} [LinearOrder Key] [AddCommGroupWithOne Value]
variable {lhs rhs : EventCounter Key Value} {map other : Tally Key Value}

theorem covers_iff (left : Refines lhs map) (right : Refines rhs other) :
    EventCounter.Covers lhs rhs ↔ map.Within other := by
  constructor
  · intro covers key absent
    by_cases member : key ∈ rhs.keys
    · rw [← right.valueOr_zero]
      exact covers key member (fun present => absent ((left.present key).mp present))
    · exact other.outside key (fun present => member ((right.present key).mpr present))
  · intro within key _member absent
    rw [right.valueOr_zero]
    exact within key (fun present => absent ((left.present key).mpr present))

/-- The law of an operator that adds the changed counts of its second operand. -/
theorem law_iff {change : Value →+ Value} (injective : Function.Injective change)
    {result : EventCounter Key Value} (left : Refines lhs map) (right : Refines rhs other)
    (made : Refines result ((map.combine change other).restrict map.domain)) :
    ((∀ key, result.valueOr key 0 = lhs.valueOr key 0 + change (rhs.valueOr key 0)) ∧
      result.total = lhs.total + change rhs.total) ↔ EventCounter.Covers lhs rhs := by
  have counts := Tally.restrict_count_iff injective map other
  simp only [left.valueOr_zero, right.valueOr_zero, made.valueOr_zero, left.total_eq,
    right.total_eq, made.total_eq, left.covers_iff right]
  constructor
  · rintro ⟨law, _total⟩
    exact counts.mp law
  · intro within
    exact ⟨counts.mpr within, Tally.restrict_total change map other within⟩

theorem adds_iff (left : Refines lhs map) (right : Refines rhs other) :
    EventCounter.Adds lhs rhs ↔ EventCounter.Covers lhs rhs :=
  left.law_iff Function.injective_id right (left.add right)

theorem subtracts_iff (left : Refines lhs map) (right : Refines rhs other) :
    EventCounter.Subtracts lhs rhs ↔ EventCounter.Covers lhs rhs := by
  have law := left.law_iff (neg_injective (G := Value)) right (left.sub right)
  unfold EventCounter.Subtracts
  simp only [sub_eq_add_neg]
  exact law

end Refines

namespace History

variable {Key Value : Type} [LinearOrder Key] [AddCommGroupWithOne Value]

/-- The counter of a history is made, and agrees with its map. -/
def AgreesWithTally (history : History Key Value) : Prop :=
  ∃ made, history.counter = some made ∧ made.Agrees history.tally

/-- The counter agrees with its map after each operation of the history, in the counters that were
added or subtracted too. -/
def AgreesThroughout : History Key Value → Prop
  | create => (create : History Key Value).AgreesWithTally
  | allocate history key => history.AgreesThroughout ∧ (history.allocate key).AgreesWithTally
  | deallocate history key => history.AgreesThroughout ∧ (history.deallocate key).AgreesWithTally
  | increment history key => history.AgreesThroughout ∧ (history.increment key).AgreesWithTally
  | set history key value => history.AgreesThroughout ∧ (history.set key value).AgreesWithTally
  | add history rhs =>
      history.AgreesThroughout ∧ rhs.AgreesThroughout ∧ (history.add rhs).AgreesWithTally
  | sub history rhs =>
      history.AgreesThroughout ∧ rhs.AgreesThroughout ∧ (history.sub rhs).AgreesWithTally

theorem agreesWithTally_of_covered (history : History Key Value) (allowed : history.Allowed)
    (covered : history.CoversThroughout) : history.AgreesWithTally := by
  obtain ⟨made, ran, refines⟩ := history.counter_refines allowed covered
  exact ⟨made, ran, EventCounter.agrees_of_refines refines⟩

theorem AgreesThroughout.last {history : History Key Value} (agrees : history.AgreesThroughout) :
    history.AgreesWithTally := by
  cases history with
  | create => exact agrees
  | allocate history key => exact agrees.2
  | deallocate history key => exact agrees.2
  | increment history key => exact agrees.2
  | set history key value => exact agrees.2
  | add history rhs => exact agrees.2.2
  | sub history rhs => exact agrees.2.2

/-- A sum or a difference that has the keys of both maps has no key of the second only. -/
theorem keysWithin_of_agrees {history rhs : History Key Value} (change : Value →+ Value)
    (operator : EventCounter Key Value → EventCounter Key Value → EventCounter Key Value)
    (right : rhs.AgreesWithTally)
    (sameKeys : ∀ counter other, (operator counter other).keys = counter.keys)
    (both : ∀ counter other, history.counter = some counter → rhs.counter = some other →
      (operator counter other).Agrees (history.tally.combine change rhs.tally)) :
    history.KeysWithin rhs := by
  intro counter other ran otherRan key member
  obtain ⟨_made, otherMade, otherAgrees⟩ := right
  cases otherMade.symm.trans otherRan
  have inUnion : key ∈ (history.tally.combine change rhs.tally).domain :=
    Finset.mem_union_right _ ((otherAgrees.getKeys key).mp member)
  have present := ((both counter other ran otherRan).getKeys key).mpr inUnion
  unfold EventCounter.getKeys at present
  rw [sameKeys] at present
  exact present

/-- Counters agree with their maps after each operation exactly when each one that is added or
subtracted has keys of the other one only. -/
theorem agreesThroughout_iff (history : History Key Value) (allowed : history.Allowed) :
    history.AgreesThroughout ↔ history.CoversThroughout := by
  induction history with
  | create => exact iff_of_true (agreesWithTally_of_covered _ allowed trivial) trivial
  | allocate history key ih =>
      refine ⟨fun agrees => (ih allowed).mp agrees.1, fun covered => ?_⟩
      exact ⟨(ih allowed).mpr covered, agreesWithTally_of_covered _ allowed covered⟩
  | deallocate history key ih =>
      refine ⟨fun agrees => (ih allowed.1).mp agrees.1, fun covered => ?_⟩
      exact ⟨(ih allowed.1).mpr covered, agreesWithTally_of_covered _ allowed covered⟩
  | increment history key ih =>
      refine ⟨fun agrees => (ih allowed).mp agrees.1, fun covered => ?_⟩
      exact ⟨(ih allowed).mpr covered, agreesWithTally_of_covered _ allowed covered⟩
  | set history key value ih =>
      refine ⟨fun agrees => (ih allowed).mp agrees.1, fun covered => ?_⟩
      exact ⟨(ih allowed).mpr covered, agreesWithTally_of_covered _ allowed covered⟩
  | add history rhs ih ihRhs =>
      constructor
      · rintro ⟨agrees, rhsAgrees, made, ran, last⟩
        refine ⟨(ih allowed.1).mp agrees, (ihRhs allowed.2).mp rhsAgrees, ?_⟩
        apply keysWithin_of_agrees (AddMonoidHom.id Value) EventCounter.add rhsAgrees.last
          (fun _counter _other => rfl)
        intro counter other isCounter isOther
        rw [History.counter, isCounter, isOther] at ran
        cases ran
        exact last
      · intro covered
        exact ⟨(ih allowed.1).mpr covered.1, (ihRhs allowed.2).mpr covered.2.1,
          agreesWithTally_of_covered _ allowed covered⟩
  | sub history rhs ih ihRhs =>
      constructor
      · rintro ⟨agrees, rhsAgrees, made, ran, last⟩
        refine ⟨(ih allowed.1).mp agrees, (ihRhs allowed.2).mp rhsAgrees, ?_⟩
        apply keysWithin_of_agrees (-AddMonoidHom.id Value) EventCounter.sub rhsAgrees.last
          (fun _counter _other => rfl)
        intro counter other isCounter isOther
        rw [History.counter, isCounter, isOther] at ran
        cases ran
        exact last
      · intro covered
        exact ⟨(ih allowed.1).mpr covered.1, (ihRhs allowed.2).mpr covered.2.1,
          agreesWithTally_of_covered _ allowed covered⟩

/-- Counters are made and stay sorted and aligned through any history. They agree with their maps
exactly if each counter that is added or subtracted has keys of the other one only, and a sum or a
difference counts key by key exactly if the first counter has every key that the second counts. -/
theorem counters_agree (lhs rhs : History Key Value) (lhsAllowed : lhs.Allowed)
    (rhsAllowed : rhs.Allowed) :
    (lhs.AgreesThroughout ↔ lhs.CoversThroughout) ∧
    ∃ left right, lhs.counter = some left ∧ rhs.counter = some right ∧
      left.keys.Pairwise (· < ·) ∧ left.values.length = left.keys.length ∧
      (left.Adds right ↔ left.Covers right) ∧ (left.Subtracts right ↔ left.Covers right) := by
  refine ⟨lhs.agreesThroughout_iff lhsAllowed, ?_⟩
  obtain ⟨left, map, leftRan, leftRefines⟩ := lhs.exists_refines lhsAllowed
  obtain ⟨right, other, rightRan, rightRefines⟩ := rhs.exists_refines rhsAllowed
  have agrees := EventCounter.agrees_of_refines leftRefines
  exact ⟨left, right, leftRan, rightRan, agrees.sorted, agrees.aligned,
    leftRefines.adds_iff rightRefines, leftRefines.subtracts_iff rightRefines⟩

/-- A sum of counters of the same key, of which one key was removed before. -/
theorem counters_agree_sameKey :
    let lhs : History Nat Int := ((create.set 2016 100).set 7 1).deallocate 7
    let rhs : History Nat Int := create.set 2016 20
    (lhs.add rhs).AgreesThroughout ∧
      ∃ left right, lhs.counter = some left ∧ rhs.counter = some right ∧ left.Adds right := by
  intro lhs rhs
  have removed : ((create.set 2016 100).set 7 1 : History Nat Int).counter =
      some { keys := [7, 2016], values := [1, 100] } := by decide
  have allowed : lhs.Allowed := by
    refine ⟨trivial, ?_⟩
    intro made ran
    cases removed.symm.trans ran
    decide
  have left : lhs.counter = some { keys := [2016], values := [100] } := by decide
  have right : rhs.counter = some { keys := [2016], values := [20] } := by decide
  have within : lhs.KeysWithin rhs := by
    intro counter other ran otherRan
    cases left.symm.trans ran
    cases right.symm.trans otherRan
    exact fun key member => member
  obtain ⟨agrees, _made⟩ := counters_agree (lhs.add rhs) rhs ⟨allowed, trivial⟩ trivial
  obtain ⟨_agrees, counter, other, ran, otherRan, _sorted, _aligned, adds, _subtracts⟩ :=
    counters_agree lhs rhs allowed trivial
  refine ⟨agrees.mpr ⟨trivial, trivial, within⟩, counter, other, ran, otherRan, adds.mpr ?_⟩
  intro key member absent
  exact absurd (within counter other ran otherRan key member) absent

/-- A key that only the second operand counts is lost, in a sum as in a difference, and one that it
holds without a count too. -/
theorem counters_otherKey :
    (create.set 1 3 : History Nat Int).counter = some { keys := [1], values := [3] } ∧
      (create.set 2 5 : History Nat Int).counter = some { keys := [2], values := [5] } ∧
      ¬ EventCounter.Adds ({ keys := [1], values := [3] } : EventCounter Nat Int)
        { keys := [2], values := [5] } ∧
      ¬ EventCounter.Subtracts ({ keys := [1], values := [3] } : EventCounter Nat Int)
        { keys := [2], values := [5] } ∧
      ¬ ((create.set 1 3).add (create.set 2 0) : History Nat Int).AgreesWithTally := by
  refine ⟨rfl, rfl, ?_, ?_, ?_⟩
  · intro law
    exact absurd (law.1 2) (by decide)
  · intro law
    exact absurd (law.1 2) (by decide)
  · rintro ⟨made, ran, agrees⟩
    cases ran
    have present := (agrees.getKeys 2).mpr (by decide)
    exact absurd present (by decide)

end History

end ChampSim.Stats

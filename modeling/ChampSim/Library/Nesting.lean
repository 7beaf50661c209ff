/-
Words of openings and closings, and a stack of bounded depth that follows them.

`outstanding` counts the openings that are not closed. `Balanced` carries how
many openings stand inside each other at the most. On a stack that forgets its
oldest item when it is full, a balanced word costs as many of the oldest items
as it was deep.
-/

import Mathlib.Data.List.Induction

set_option autoImplicit false

namespace ChampSim.Nesting

inductive Mark where
  | opening
  | closing
  | neutral
deriving DecidableEq, Repr

namespace Mark

/-- The openings that are not closed after one more symbol. -/
def counted : Mark → Nat → Option Nat
  | .opening, count => some (count + 1)
  | .neutral, count => some count
  | .closing, 0 => none
  | .closing, count + 1 => some count

end Mark

variable {Symbol Item : Type} (mark : Symbol → Mark)

/-- The openings that are not closed after a word, unless it closes one too many. -/
def outstanding (word : List Symbol) : Option Nat :=
  word.foldlM (fun count symbol => (mark symbol).counted count) 0

/-- A word that closes just what it opens, with the most that is open at the same time. -/
inductive Balanced : List Symbol → Nat → Prop where
  | empty : Balanced [] 0
  | neutral {symbol : Symbol} {rest : List Symbol} {depth : Nat}
      (isNeutral : mark symbol = .neutral) (following : Balanced rest depth) :
      Balanced (symbol :: rest) depth
  | nest {first last : Symbol} {inner rest : List Symbol} {depth other : Nat}
      (opens : mark first = .opening) (inside : Balanced inner depth)
      (closes : mark last = .closing) (following : Balanced rest other) :
      Balanced (first :: (inner ++ last :: rest)) (max (depth + 1) other)

/-- A word is balanced after each of its openings that are not closed. -/
inductive Parsed : List Symbol → Nat → Prop where
  | balanced {word : List Symbol} {depth : Nat} (whole : Balanced mark word depth) : Parsed word 0
  | opened {before inner : List Symbol} {first : Symbol} {count depth : Nat}
      (earlier : Parsed before count) (opens : mark first = .opening)
      (inside : Balanced mark inner depth) : Parsed (before ++ first :: inner) (count + 1)

variable {mark}

theorem Balanced.append {first second : List Symbol} {depth other : Nat}
    (left : Balanced mark first depth) (right : Balanced mark second other) :
    Balanced mark (first ++ second) (max depth other) := by
  induction left with
  | empty =>
      rw [Nat.zero_max]
      exact right
  | neutral isNeutral following ih => exact .neutral isNeutral ih
  | nest opens inside closes following _inner ih =>
      rw [List.cons_append, List.append_assoc, List.cons_append, Nat.max_assoc]
      exact .nest opens inside closes ih

theorem outstanding_concat (word : List Symbol) (symbol : Symbol) :
    outstanding mark (word ++ [symbol]) =
      (outstanding mark word).bind (fun count => (mark symbol).counted count) := by
  unfold outstanding
  rw [List.foldlM_append]
  cases List.foldlM (fun count symbol => (mark symbol).counted count) 0 word with
  | none => rfl
  | some count =>
      change ((mark symbol).counted count).bind some = (mark symbol).counted count
      exact Option.bind_fun_some _

/-- What comes before a part of a word that never closes too much does not either. -/
theorem outstanding_front {front word : List Symbol} (earlier : front <+: word)
    (nested : (outstanding mark word).isSome) : (outstanding mark front).isSome := by
  obtain ⟨rest, same⟩ := earlier
  rw [← same] at nested
  unfold outstanding at nested ⊢
  rw [List.foldlM_append] at nested
  cases counted : List.foldlM (fun count symbol => (mark symbol).counted count) 0 front with
  | none =>
      rw [counted] at nested
      cases nested
  | some count => rfl

/-- A closing ends the innermost opening, so that what surrounds that one goes on. -/
theorem Parsed.close {before inner : List Symbol} {first last : Symbol} {count depth : Nat}
    (earlier : Parsed mark before count) (opens : mark first = .opening)
    (inside : Balanced mark inner depth) (closes : mark last = .closing) :
    Parsed mark (before ++ first :: (inner ++ [last])) count := by
  have nested : Balanced mark (first :: (inner ++ [last])) (max (depth + 1) 0) :=
    .nest opens inside closes .empty
  cases earlier with
  | balanced whole => exact .balanced (whole.append nested)
  | opened earlier opensEarlier insideEarlier =>
      rw [List.append_assoc, List.cons_append]
      exact .opened earlier opensEarlier (insideEarlier.append nested)

theorem Parsed.skip {word : List Symbol} {symbol : Symbol} {count : Nat}
    (parsed : Parsed mark word count) (isNeutral : mark symbol = .neutral) :
    Parsed mark (word ++ [symbol]) count := by
  have alone : Balanced mark [symbol] 0 := .neutral isNeutral .empty
  cases parsed with
  | balanced whole => exact .balanced (whole.append alone)
  | opened earlier opens inside =>
      rw [List.append_assoc, List.cons_append]
      exact .opened earlier opens (inside.append alone)

theorem parsed_of_outstanding (word : List Symbol) (count : Nat)
    (counted : outstanding mark word = some count) : Parsed mark word count := by
  induction word using List.reverseRecOn generalizing count with
  | nil =>
      cases counted
      exact .balanced .empty
  | append_singleton word symbol ih =>
      rw [outstanding_concat] at counted
      obtain ⟨before, isBefore, step⟩ := Option.bind_eq_some_iff.mp counted
      have parsed := ih before isBefore
      cases kind : mark symbol with
      | opening =>
          rw [kind] at step
          cases step
          exact .opened parsed kind .empty
      | neutral =>
          rw [kind] at step
          cases step
          exact parsed.skip kind
      | closing =>
          rw [kind] at step
          cases parsed with
          | balanced whole => cases step
          | opened earlier opens inside =>
              cases step
              rw [List.append_assoc, List.cons_append]
              exact earlier.close opens inside kind

/-- Before a closing, what it closes is the latest opening that is not closed. -/
theorem exists_opening {front : List Symbol} {last : Symbol}
    (nested : (outstanding mark (front ++ [last])).isSome) (closes : mark last = .closing) :
    ∃ before first inner depth, front = before ++ first :: inner ∧ mark first = .opening ∧
      Balanced mark inner depth := by
  rw [outstanding_concat, closes] at nested
  cases counted : outstanding mark front with
  | none =>
      rw [counted] at nested
      cases nested
  | some count =>
      cases count with
      | zero =>
          rw [counted] at nested
          cases nested
      | succ count =>
          cases parsed_of_outstanding front (count + 1) counted with
          | opened earlier opens inside => exact ⟨_, _, _, _, rfl, opens, inside⟩

/-! ### Bounded stacks -/

/-- A stack, the latest item first, that keeps only its latest items. -/
def follow (mark : Symbol → Mark) (item : Symbol → Item) (limit : Nat) (stack : List Item)
    (symbol : Symbol) : List Item :=
  match mark symbol with
  | .opening => (item symbol :: stack).take limit
  | .closing => stack.tail
  | .neutral => stack

theorem follow_length_le (item : Symbol → Item) {limit : Nat} {stack : List Item}
    (bounded : stack.length ≤ limit) (symbol : Symbol) :
    (follow mark item limit stack symbol).length ≤ limit := by
  unfold follow
  split
  · exact List.length_take_le _ _
  · rw [List.length_tail]
    omega
  · exact bounded

theorem foldl_follow_length_le (item : Symbol → Item) {limit : Nat} (word : List Symbol)
    {stack : List Item} (bounded : stack.length ≤ limit) :
    (word.foldl (follow mark item limit) stack).length ≤ limit := by
  induction word generalizing stack with
  | nil => exact bounded
  | cons symbol rest ih => exact ih (follow_length_le item bounded symbol)

theorem foldl_follow_balanced (item : Symbol → Item) {limit : Nat} {word : List Symbol}
    {depth : Nat} (balanced : Balanced mark word depth) (stack : List Item)
    (bounded : stack.length ≤ limit) :
    word.foldl (follow mark item limit) stack = stack.take (limit - depth) := by
  induction balanced generalizing stack with
  | empty => exact (List.take_of_length_le bounded).symm
  | @neutral symbol rest depth isNeutral following ih =>
      have same : follow mark item limit stack symbol = stack := by
        unfold follow
        rw [isNeutral]
      rw [List.foldl_cons, same]
      exact ih stack bounded
  | @nest first last inner rest depth other opens inside closes following ihInner ihRest =>
      have entered : follow mark item limit stack first = (item first :: stack).take limit := by
        unfold follow
        rw [opens]
      have left : ∀ within, follow mark item limit within last = within.tail := by
        intro within
        unfold follow
        rw [closes]
      have few : (stack.take (limit - (depth + 1))).length ≤ limit :=
        Nat.le_trans (List.length_take_le' _ _) bounded
      rw [List.foldl_cons, List.foldl_append, List.foldl_cons, entered,
        ihInner _ (List.length_take_le _ _), left, List.take_take, Nat.min_eq_left (by omega)]
      have popped : ((item first :: stack).take (limit - depth)).tail =
          stack.take (limit - (depth + 1)) := by
        cases remains : limit - depth with
        | zero =>
            rw [show limit - (depth + 1) = 0 by omega]
            rfl
        | succ room =>
            rw [show limit - (depth + 1) = room by omega]
            rfl
      rw [popped, ihRest _ few, List.take_take]
      congr 1
      omega

/-- Before the closing of an opening, its item is on top unless what was inside reached the
limit, which has left nothing. -/
theorem foldl_follow_opening (item : Symbol → Item) {limit : Nat} {before inner : List Symbol}
    {first : Symbol} {depth : Nat} (opens : mark first = .opening)
    (inside : Balanced mark inner depth) {stack : List Item} :
    (before ++ first :: inner).foldl (follow mark item limit) stack =
      (item first :: before.foldl (follow mark item limit) stack).take (limit - depth) := by
  have entered : ∀ older, follow mark item limit older first = (item first :: older).take limit := by
    intro older
    unfold follow
    rw [opens]
  rw [List.foldl_append, List.foldl_cons, entered,
    foldl_follow_balanced item inside _ (List.length_take_le _ _), List.take_take,
    Nat.min_eq_left (Nat.sub_le limit depth)]

end ChampSim.Nesting

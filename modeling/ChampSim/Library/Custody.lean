/-
Requests that are handed from holder to holder until they are answered.

A holder names those it must answer and the tokens that an answer hands back.
Holders may be merged, the place of one may become known, and an answer gives
all its tokens to all it names. No path of such moves loses a requester, and
none makes a second holder of a token.
-/

import ChampSim.Library.Queue
import Mathlib.Data.List.Perm.Basic

set_option autoImplicit false

namespace ChampSim.Custody

structure Holder (Place : Type) where
  place : Place
  toReturn : List Nat
  tokens : List Nat

/-- The ways from some holders to others, and what is answered on the way. -/
inductive Moves {Place Reply : Type} (Resolves : Place → Place → Prop)
    (Replies : Reply → Holder Place → Prop) :
    List (Holder Place) → List (Holder Place × Reply) → List (Holder Place) → Prop where
  | reorder (before after : List (Holder Place)) : before.Perm after →
      Moves Resolves Replies before [] after
  | resolve (holder : Holder Place) (place : Place) (rest : List (Holder Place)) :
      Resolves holder.place place →
      Moves Resolves Replies (holder :: rest) [] ({ holder with place } :: rest)
  | merge (first second merged : Holder Place) (rest : List (Holder Place)) :
      merged.place = first.place → merged.place = second.place →
      (∀ level, level ∈ merged.toReturn ↔ level ∈ first.toReturn ∨ level ∈ second.toReturn) →
      (∀ token, token ∈ merged.tokens ↔ token ∈ first.tokens ∨ token ∈ second.tokens) →
      Moves Resolves Replies (first :: second :: rest) [] (merged :: rest)
  | answer (holder : Holder Place) (reply : Reply) (rest : List (Holder Place)) :
      Replies reply holder → Moves Resolves Replies (holder :: rest) [(holder, reply)] rest
  | enter (holder : Holder Place) (rest : List (Holder Place)) : holder.tokens = [] →
      Moves Resolves Replies rest [] (holder :: rest)
  | drop (holder : Holder Place) (rest : List (Holder Place)) : holder.toReturn = [] →
      Moves Resolves Replies (holder :: rest) [] rest
  | trans {before middle after : List (Holder Place)}
      {first second : List (Holder Place × Reply)} :
      Moves Resolves Replies before first middle → Moves Resolves Replies middle second after →
      Moves Resolves Replies before (first ++ second) after

/-- A holder that must hand these tokens back to a requester. -/
structure Serves {Place : Type} (Fits : Place → Prop) (level : Nat) (tokens : List Nat)
    (holder : Holder Place) : Prop where
  fits : Fits holder.place
  toReturn : level ∈ holder.toReturn
  tokens : ∀ token ∈ tokens, token ∈ holder.tokens

namespace Moves

variable {Place Reply State Item : Type} {Resolves : Place → Place → Prop}
  {Replies : Reply → Holder Place → Prop} {before after : List (Holder Place)}
  {answers : List (Holder Place × Reply)}

theorem refl (holders : List (Holder Place)) : Moves Resolves Replies holders [] holders :=
  .reorder holders holders (List.Perm.refl holders)

theorem before_perm (moves : Moves Resolves Replies before answers after)
    {others : List (Holder Place)} (same : others.Perm before) :
    Moves Resolves Replies others answers after :=
  .trans (.reorder others before same) moves

theorem after_perm (moves : Moves Resolves Replies before answers after)
    {others : List (Holder Place)} (same : after.Perm others) :
    Moves Resolves Replies before answers others := by
  have both := moves.trans (.reorder after others same)
  rw [List.append_nil] at both
  exact both

theorem frame (moves : Moves Resolves Replies before answers after) (rest : List (Holder Place)) :
    Moves Resolves Replies (before ++ rest) answers (after ++ rest) := by
  induction moves with
  | reorder before after same => exact .reorder _ _ (same.append_right rest)
  | resolve holder place others resolves => exact .resolve holder place (others ++ rest) resolves
  | merge first second merged others place samePlace toReturn tokens =>
      exact .merge first second merged (others ++ rest) place samePlace toReturn tokens
  | answer holder reply others replies => exact .answer holder reply (others ++ rest) replies
  | enter holder others free => exact .enter holder (others ++ rest) free
  | drop holder others free => exact .drop holder (others ++ rest) free
  | trans first second ihFirst ihSecond => exact ihFirst.trans ihSecond

theorem replies (moves : Moves Resolves Replies before answers after) :
    ∀ answer ∈ answers, Replies answer.2 answer.1 := by
  intro answer member
  induction moves with
  | answer holder reply rest fits =>
      rw [List.mem_singleton.mp member]
      exact fits
  | trans first second ihFirst ihSecond =>
      rcases List.mem_append.mp member with inFirst | inSecond
      · exact ihFirst inFirst
      · exact ihSecond inSecond
  | _ => cases member

theorem serves (moves : Moves Resolves Replies before answers after) (Fits : Place → Prop)
    (closed : ∀ place other, Resolves place other → Fits place → Fits other)
    (level : Nat) (tokens : List Nat)
    (served : ∃ holder ∈ before, Serves Fits level tokens holder) :
    (∃ holder ∈ after, Serves Fits level tokens holder) ∨
      ∃ answer ∈ answers, Serves Fits level tokens answer.1 ∧ Replies answer.2 answer.1 := by
  induction moves with
  | reorder before after same =>
      obtain ⟨holder, member, serving⟩ := served
      exact Or.inl ⟨holder, same.mem_iff.mp member, serving⟩
  | resolve first place rest resolves =>
      obtain ⟨holder, member, serving⟩ := served
      rcases List.mem_cons.mp member with isFirst | later
      · subst isFirst
        exact Or.inl ⟨{ holder with place }, List.mem_cons_self,
          closed _ _ resolves serving.fits, serving.toReturn, serving.tokens⟩
      · exact Or.inl ⟨holder, List.mem_cons_of_mem _ later, serving⟩
  | merge first second merged rest place samePlace toReturn merges =>
      obtain ⟨holder, member, serving⟩ := served
      rcases List.mem_cons.mp member with isFirst | others
      · subst isFirst
        refine Or.inl ⟨merged, List.mem_cons_self, place ▸ serving.fits,
          (toReturn level).mpr (Or.inl serving.toReturn), ?_⟩
        intro token listed
        exact (merges token).mpr (Or.inl (serving.tokens token listed))
      · rcases List.mem_cons.mp others with isSecond | later
        · subst isSecond
          refine Or.inl ⟨merged, List.mem_cons_self, samePlace ▸ serving.fits,
            (toReturn level).mpr (Or.inr serving.toReturn), ?_⟩
          intro token listed
          exact (merges token).mpr (Or.inr (serving.tokens token listed))
        · exact Or.inl ⟨holder, List.mem_cons_of_mem _ later, serving⟩
  | answer first reply rest replies =>
      obtain ⟨holder, member, serving⟩ := served
      rcases List.mem_cons.mp member with isFirst | later
      · subst isFirst
        exact Or.inr ⟨(holder, reply), List.mem_cons_self, serving, replies⟩
      · exact Or.inl ⟨holder, later, serving⟩
  | enter first rest free =>
      obtain ⟨holder, member, serving⟩ := served
      exact Or.inl ⟨holder, List.mem_cons_of_mem _ member, serving⟩
  | drop first rest free =>
      obtain ⟨holder, member, serving⟩ := served
      rcases List.mem_cons.mp member with isFirst | later
      · subst isFirst
        have present := serving.toReturn
        rw [free] at present
        cases present
      · exact Or.inl ⟨holder, later, serving⟩
  | trans first second ihFirst ihSecond =>
      rcases ihFirst served with still | ⟨answer, member, answered⟩
      · rcases ihSecond still with reached | ⟨answer, member, answered⟩
        · exact Or.inl reached
        · exact Or.inr ⟨answer, List.mem_append_right _ member, answered⟩
      · exact Or.inr ⟨answer, List.mem_append_left _ member, answered⟩

/-- Moves never make more holders of a token, those that were answered included. -/
theorem countP_answers_le (moves : Moves Resolves Replies before answers after) (token : Nat) :
    after.countP (fun holder => decide (token ∈ holder.tokens)) +
        answers.countP (fun answer => decide (token ∈ answer.1.tokens)) ≤
      before.countP (fun holder => decide (token ∈ holder.tokens)) := by
  induction moves with
  | reorder before after same => exact Nat.le_of_eq (same.countP_eq _).symm
  | resolve holder place rest resolves =>
      rw [List.countP_cons, List.countP_cons, List.countP_nil]
      exact Nat.le_refl _
  | merge first second merged rest place samePlace toReturn tokens =>
      rw [List.countP_cons, List.countP_cons, List.countP_cons]
      by_cases inFirst : token ∈ first.tokens
      · simp [inFirst, tokens token]
      · by_cases inSecond : token ∈ second.tokens
        · simp [inFirst, inSecond, tokens token]
        · simp [inFirst, inSecond, tokens token]
  | answer holder reply rest replies =>
      rw [List.countP_cons, List.countP_cons, List.countP_nil, Nat.zero_add]
  | enter holder rest free => simp [free]
  | drop holder rest free => exact (List.sublist_cons_self _ _).countP_le
  | trans first second ihFirst ihSecond =>
      rw [List.countP_append]
      omega

theorem countP_le (moves : Moves Resolves Replies before answers after) (token : Nat) :
    after.countP (fun holder => decide (token ∈ holder.tokens)) ≤
      before.countP (fun holder => decide (token ∈ holder.tokens)) :=
  (Nat.le_add_right _ _).trans (moves.countP_answers_le token)

theorem resolveEach (holder next : Item → Holder Place) (items : List Item)
    (rest : List (Holder Place))
    (resolves : ∀ item ∈ items, next item = holder item ∨
      ∃ place, Resolves (holder item).place place ∧ next item = { holder item with place }) :
    Moves Resolves Replies (items.map holder ++ rest) [] (items.map next ++ rest) := by
  induction items generalizing rest with
  | nil => exact refl rest
  | cons item others ih =>
      have first : Moves Resolves Replies (holder item :: (others.map holder ++ rest)) []
          (next item :: (others.map holder ++ rest)) := by
        rcases resolves item List.mem_cons_self with same | ⟨place, known, same⟩
        · rw [same]
          exact refl _
        · rw [same]
          exact .resolve (holder item) place _ known
      have later := ih (next item :: rest)
        (fun other member => resolves other (List.mem_cons_of_mem item member))
      exact (first.trans (later.before_perm List.perm_middle.symm)).after_perm List.perm_middle

theorem enterEach (fresh rest : List (Holder Place)) (free : ∀ holder ∈ fresh, holder.tokens = []) :
    Moves Resolves Replies rest [] (fresh ++ rest) := by
  induction fresh with
  | nil => exact refl rest
  | cons holder others ih =>
      have later := ih (fun other member => free other (List.mem_cons_of_mem holder member))
      exact later.trans (.enter holder (others ++ rest) (free holder List.mem_cons_self))

end Moves

/-! ### Moves of a state -/

section Hands

variable {Place Reply State Item : Type} (Resolves : Place → Place → Prop)
  (Replies : Reply → Holder Place → Prop)
  (Sent : State → List (Holder Place × Reply) → State → Prop)

/-- Moves from the holders of one state to those of another, which has sent
the answers. -/
def Hands (state : State) (before : List (Holder Place)) (next : State)
    (after : List (Holder Place)) : Prop :=
  ∃ answers, Moves Resolves Replies before answers after ∧ Sent state answers next

variable {Resolves Replies Sent}

theorem Hands.trans (together : ∀ state middle last first second, Sent state first middle →
      Sent middle second last → Sent state (first ++ second) last)
    {state middle last : State} {before during after : List (Holder Place)}
    (first : Hands Resolves Replies Sent state before middle during)
    (second : Hands Resolves Replies Sent middle during last after) :
    Hands Resolves Replies Sent state before last after := by
  obtain ⟨answers, moves, sent⟩ := first
  obtain ⟨more, later, laterSent⟩ := second
  exact ⟨answers ++ more, moves.trans later, together _ _ _ _ _ sent laterSent⟩

theorem Hands.frame {state next : State} {before after : List (Holder Place)}
    (hands : Hands Resolves Replies Sent state before next after) (rest : List (Holder Place)) :
    Hands Resolves Replies Sent state (before ++ rest) next (after ++ rest) := by
  obtain ⟨answers, moves, sent⟩ := hands
  exact ⟨answers, moves.frame rest, sent⟩

theorem Hands.before_perm {state next : State} {before others after : List (Holder Place)}
    (hands : Hands Resolves Replies Sent state before next after) (same : others.Perm before) :
    Hands Resolves Replies Sent state others next after := by
  obtain ⟨answers, moves, sent⟩ := hands
  exact ⟨answers, moves.before_perm same, sent⟩

theorem Hands.after_perm {state next : State} {before after others : List (Holder Place)}
    (hands : Hands Resolves Replies Sent state before next after) (same : after.Perm others) :
    Hands Resolves Replies Sent state before next others := by
  obtain ⟨answers, moves, sent⟩ := hands
  exact ⟨answers, moves.after_perm same, sent⟩

/-- When each question hands its item over or gives it back, so does a partition. -/
theorem Hands.partition (nothing : ∀ state, Sent state [] state)
    (together : ∀ state middle last first second, Sent state first middle →
      Sent middle second last → Sent state (first ++ second) last)
    (ask : State → Item → Bool × State) (holders : State → List (Holder Place))
    (holder : Item → Holder Place) (items : List Item)
    (each : ∀ state, ∀ item ∈ items, Hands Resolves Replies Sent state
      (holder item :: holders state) (ask state item).2
      (if (ask state item).1 then holders (ask state item).2
        else holder item :: holders (ask state item).2)) (state : State) :
    Hands Resolves Replies Sent state (items.map holder ++ holders state)
      (Queue.partition ask state items).2
      ((Queue.partition ask state items).1.2.map holder ++
        holders (Queue.partition ask state items).2) := by
  induction items generalizing state with
  | nil => exact ⟨[], Moves.refl _, nothing state⟩
  | cons item rest ih =>
      obtain ⟨answers, moves, sent⟩ := each state item List.mem_cons_self
      obtain ⟨more, later, laterSent⟩ := ih (fun other next member =>
        each other next (List.mem_cons_of_mem item member)) (ask state item).2
      refine ⟨answers ++ more, ?_, together _ _ _ _ _ sent laterSent⟩
      have framed := (moves.frame (rest.map holder)).before_perm
        (List.perm_append_comm.cons (holder item))
      unfold Queue.partition
      dsimp only
      by_cases accepted : (ask state item).1 = true
      · rw [if_pos accepted] at framed ⊢
        exact framed.trans (later.before_perm List.perm_append_comm)
      · rw [if_neg accepted] at framed ⊢
        have back := (later.frame [holder item]).before_perm
          ((List.perm_append_comm.cons (holder item)).trans
            (List.perm_append_singleton _ _).symm)
        exact (framed.trans back).after_perm (List.perm_append_singleton _ _)

end Hands

end ChampSim.Custody

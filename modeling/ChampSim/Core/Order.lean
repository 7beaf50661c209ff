/-
The ids in the buffers of the core, and the order that they stand in.

The ids of the instructions that have retired and of those in the buffers,
from the reorder buffer back to the input queue, are those that were read. The
two buffers before decoding count as their merge.
-/

import ChampSim.Core.Effects
import ChampSim.Library.Merge

set_option autoImplicit false

namespace ChampSim.Core

open Transition Cache

def ids (instrs : List OooModelInstr) : List Nat := instrs.map (fun instr => instr.instrId)

/-- The order in which `std::merge` takes two ids. -/
def idLe (lhs rhs : Nat) : Bool := !decide (rhs < lhs)

theorem ids_mergeInOrder (first second : List OooModelInstr) :
    ids (mergeInOrder first second) = (ids first).merge (ids second) idLe := by
  rw [mergeInOrder_eq_merge]
  exact List.map_merge (fun _ _ _ _ => rfl)

structure Order where
  rob : List Nat
  dispatch : List Nat
  dibHit : List Nat
  decode : List Nat
  ifetch : List Nat
  input : List Nat

namespace Order

/-- The ids in the front end, the decoding buffers merged. -/
def fetched (order : Order) : List Nat := order.dibHit.merge order.decode idLe

def pipeline (order : Order) : List Nat :=
  order.rob ++ order.dispatch ++ order.fetched ++ order.ifetch ++ order.input

structure Sorted (order : Order) : Prop where
  rob : order.rob.Pairwise (fun earlier later => earlier < later)
  dispatch : order.dispatch.Pairwise (fun earlier later => earlier < later)
  dibHit : order.dibHit.Pairwise (fun earlier later => earlier < later)
  decode : order.decode.Pairwise (fun earlier later => earlier < later)
  ifetch : order.ifetch.Pairwise (fun earlier later => earlier < later)
  input : order.input.Pairwise (fun earlier later => earlier < later)

structure Within (config : Config) (order : Order) : Prop where
  rob : order.rob.length ≤ config.robSize
  dispatch : order.dispatch.length ≤ config.dispatchBufferSize
  dibHit : order.dibHit.length ≤ config.dibHitBufferSize
  decode : order.decode.length ≤ config.decodeBufferSize
  ifetch : order.ifetch.length ≤ config.ifetchBufferSize
  input : order.input.length ≤ config.inQueueSize

end Order

namespace O3Cpu

variable {Module : Type}

def order (state : O3Cpu Module) : Order where
  rob := ids state.rob
  dispatch := ids state.dispatchBuffer
  dibHit := ids state.dibHitBuffer
  decode := ids state.decodeBuffer
  ifetch := ids state.ifetchBuffer
  input := ids state.inputQueue

end O3Cpu

/-- The ids that have been read and those that have retired. -/
structure History where
  read : List Nat := []
  retired : List Nat := []

structure InOrder (config : Config) (order : Order) (history : History) : Prop where
  stream : history.retired ++ order.pipeline = history.read
  increasing : history.read.Pairwise (fun earlier later => earlier < later)
  dibHit : order.dibHit.Pairwise (fun earlier later => earlier < later)
  decode : order.decode.Pairwise (fun earlier later => earlier < later)
  within : order.Within config

namespace InOrder

variable {config : Config} {order : Order} {history : History}

theorem pipeline_increasing (inOrder : InOrder config order history) :
    order.pipeline.Pairwise (fun earlier later => earlier < later) := by
  have all := inOrder.increasing
  rw [← inOrder.stream] at all
  exact (List.pairwise_append.mp all).2.1

theorem sorted (inOrder : InOrder config order history) : order.Sorted := by
  have all := inOrder.pipeline_increasing
  unfold Order.pipeline at all
  simp only [List.pairwise_append] at all
  exact ⟨all.1.1.1.1, all.1.1.1.2.1, inOrder.dibHit, inOrder.decode, all.1.2.1, all.2.1⟩

/-- The front of the dispatch buffer is younger than the reorder buffer. -/
theorem dispatch_youngest (inOrder : InOrder config order history) (id : Nat) (rest : List Nat)
    (front : order.dispatch = id :: rest) (earlier : Nat) (member : earlier ∈ order.rob) :
    earlier < id := by
  have all := inOrder.pipeline_increasing
  unfold Order.pipeline at all
  simp only [List.pairwise_append] at all
  apply all.1.1.1.2.2 earlier member id
  rw [front]
  exact List.mem_cons_self

/-! ### What the stages do to the order -/

theorem retire (inOrder : InOrder config order history) (count : Nat) :
    InOrder config { order with rob := order.rob.drop count }
      { history with retired := history.retired ++ order.rob.take count } := by
  have within := inOrder.within
  refine ⟨?_, inOrder.increasing, inOrder.dibHit, inOrder.decode, ?_⟩
  · have same := inOrder.stream
    unfold Order.pipeline Order.fetched at same ⊢
    dsimp only
    rw [← same]
    simp only [List.append_assoc]
    rw [← List.append_assoc (order.rob.take count), List.take_append_drop]
  · have buffer := within.rob
    refine { within with rob := ?_ }
    rw [List.length_drop]
    omega

theorem dispatch (inOrder : InOrder config order history) (id : Nat) (rest : List Nat)
    (front : order.dispatch = id :: rest) (room : order.rob.length ≠ config.robSize) :
    InOrder config { order with rob := order.rob ++ [id], dispatch := rest } history := by
  have within := inOrder.within
  refine ⟨?_, inOrder.increasing, inOrder.dibHit, inOrder.decode, ?_⟩
  · have same := inOrder.stream
    unfold Order.pipeline Order.fetched at same ⊢
    dsimp only
    rw [front] at same
    rw [← same]
    simp only [List.append_assoc, List.cons_append, List.nil_append]
  · have atMost := within.rob
    have buffer := within.dispatch
    rw [front, List.length_cons] at buffer
    refine { within with rob := ?_, dispatch := ?_ }
    · rw [List.length_append, List.length_singleton]
      omega
    · dsimp only
      omega

theorem read (inOrder : InOrder config order history) (id : Nat)
    (newest : ∀ earlier ∈ history.read, earlier < id)
    (room : order.input.length < config.inQueueSize) :
    InOrder config { order with input := order.input ++ [id] }
      { history with read := history.read ++ [id] } := by
  have within := inOrder.within
  refine ⟨?_, ?_, inOrder.dibHit, inOrder.decode, ?_⟩
  · have same := inOrder.stream
    unfold Order.pipeline Order.fetched at same ⊢
    dsimp only
    rw [← same]
    simp only [List.append_assoc]
  · rw [List.pairwise_append]
    refine ⟨inOrder.increasing, List.pairwise_singleton _ _, ?_⟩
    intro earlier member later among
    rw [List.mem_singleton.mp among]
    exact newest earlier member
  · refine { within with input := ?_ }
    rw [List.length_append, List.length_singleton]
    omega

theorem receive (inOrder : InOrder config order history) (id : Nat) (rest : List Nat)
    (front : order.input = id :: rest) (room : order.ifetch.length < config.ifetchBufferSize) :
    InOrder config { order with ifetch := order.ifetch ++ [id], input := rest } history := by
  have within := inOrder.within
  refine ⟨?_, inOrder.increasing, inOrder.dibHit, inOrder.decode, ?_⟩
  · have same := inOrder.stream
    unfold Order.pipeline Order.fetched at same ⊢
    dsimp only
    rw [front] at same
    rw [← same]
    simp only [List.append_assoc, List.cons_append, List.nil_append]
  · have queue := within.input
    rw [front, List.length_cons] at queue
    refine { within with ifetch := ?_, input := ?_ }
    · rw [List.length_append, List.length_singleton]
      omega
    · dsimp only
      omega

theorem fetched_mem (id : Nat) :
    id ∈ order.fetched ↔ id ∈ order.dibHit ∨ id ∈ order.decode := List.mem_merge

theorem fetched_lt (inOrder : InOrder config order history) (earlier : Nat)
    (member : earlier ∈ order.fetched) (later : Nat) (among : later ∈ order.ifetch) :
    earlier < later := by
  have all := inOrder.pipeline_increasing
  unfold Order.pipeline at all
  simp only [List.pairwise_append] at all
  exact all.1.2.2 earlier (List.mem_append_right _ member) later among

/-- A window of the fetch buffer is split between the two decoding buffers. -/
theorem promote (inOrder : InOrder config order history) (window hits misses rest : List Nat)
    (split : order.ifetch = window ++ rest) (merged : hits.merge misses idLe = window)
    (hitsSorted : hits.Pairwise (fun earlier later => earlier < later))
    (missesSorted : misses.Pairwise (fun earlier later => earlier < later))
    (hitRoom : order.dibHit.length + hits.length ≤ config.dibHitBufferSize)
    (missRoom : order.decode.length + misses.length ≤ config.decodeBufferSize) :
    InOrder config
      { order with
        dibHit := order.dibHit ++ hits
        decode := order.decode ++ misses
        ifetch := rest } history := by
  have within := inOrder.within
  have older : ∀ earlier ∈ order.fetched, ∀ later, later ∈ hits ∨ later ∈ misses →
      earlier < later := by
    intro earlier member later among
    apply inOrder.fetched_lt earlier member later
    rw [split, ← merged]
    exact List.mem_append_left _ (List.mem_merge.mpr among)
  have together : (order.dibHit ++ hits).merge (order.decode ++ misses) idLe =
      order.fetched ++ window := by
    rw [← merged]
    apply Merge.merge_append
    · intro earlier member later among
      have less := older earlier (fetched_mem earlier |>.mpr (Or.inl member)) later (Or.inr among)
      unfold idLe
      rw [decide_eq_false (by omega)]
      rfl
    · intro later among earlier member
      have less := older earlier (fetched_mem earlier |>.mpr (Or.inr member)) later (Or.inl among)
      unfold idLe
      rw [decide_eq_true less]
      rfl
  refine ⟨?_, inOrder.increasing, ?_, ?_, ?_⟩
  · have same := inOrder.stream
    unfold Order.pipeline Order.fetched at same ⊢
    dsimp only
    rw [together, ← same, split]
    unfold Order.fetched
    simp only [List.append_assoc]
  · dsimp only
    rw [List.pairwise_append]
    exact ⟨inOrder.dibHit, hitsSorted, fun earlier member later among =>
      older earlier (fetched_mem earlier |>.mpr (Or.inl member)) later (Or.inl among)⟩
  · dsimp only
    rw [List.pairwise_append]
    exact ⟨inOrder.decode, missesSorted, fun earlier member later among =>
      older earlier (fetched_mem earlier |>.mpr (Or.inr member)) later (Or.inr among)⟩
  · have buffer := within.ifetch
    rw [split, List.length_append] at buffer
    refine { within with dibHit := ?_, decode := ?_, ifetch := ?_ }
    · rw [List.length_append]
      exact hitRoom
    · rw [List.length_append]
      exact missRoom
    · dsimp only
      omega

/-- What is chosen from each decoding buffer is older than what is left of the
other. -/
theorem decodes (inOrder : InOrder config order history)
    (hits hitsLeft misses missesLeft : List Nat) (hitSplit : order.dibHit = hits ++ hitsLeft)
    (missSplit : order.decode = misses ++ missesLeft)
    (hitFirst : ∀ hit ∈ hits, ∀ miss ∈ missesLeft, hit < miss)
    (missFirst : ∀ miss ∈ misses, ∀ hit ∈ hitsLeft, miss < hit)
    (room : order.dispatch.length + (hits.length + misses.length) ≤ config.dispatchBufferSize) :
    InOrder config
      { order with
        dispatch := order.dispatch ++ hits.merge misses idLe
        dibHit := hitsLeft
        decode := missesLeft } history := by
  have within := inOrder.within
  have together : order.fetched = hits.merge misses idLe ++ hitsLeft.merge missesLeft idLe := by
    unfold Order.fetched
    rw [hitSplit, missSplit]
    apply Merge.merge_append
    · intro hit member miss among
      have less := hitFirst hit member miss among
      unfold idLe
      rw [decide_eq_false (by omega)]
      rfl
    · intro hit member miss among
      unfold idLe
      rw [decide_eq_true (missFirst miss among hit member)]
      rfl
  refine ⟨?_, inOrder.increasing, ?_, ?_, ?_⟩
  · have same := inOrder.stream
    unfold Order.pipeline at same ⊢
    rw [together] at same
    rw [← same]
    unfold Order.fetched
    simp only [List.append_assoc]
  · have sorted := inOrder.dibHit
    rw [hitSplit, List.pairwise_append] at sorted
    exact sorted.2.1
  · have sorted := inOrder.decode
    rw [missSplit, List.pairwise_append] at sorted
    exact sorted.2.1
  · have hitBuffer := within.dibHit
    have missBuffer := within.decode
    rw [hitSplit, List.length_append] at hitBuffer
    rw [missSplit, List.length_append] at missBuffer
    refine { within with dispatch := ?_, dibHit := ?_, decode := ?_ }
    · rw [List.length_append, List.length_merge]
      exact room
    · dsimp only
      omega
    · dsimp only
      omega

end InOrder

end ChampSim.Core

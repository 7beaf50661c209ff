/-
Merges of two queues that are cut in two.

When what is left of each queue comes after what is taken of the other, the
merge of the queues is the merge of what is taken before the merge of what is
left. A queue that is split by a condition is merged back as it was.
-/

import Mathlib.Data.List.Basic

set_option autoImplicit false

namespace ChampSim.Merge

variable {Item : Type} (le : Item → Item → Bool)

theorem merge_append (taken left others rest : List Item)
    (before : ∀ item ∈ taken, ∀ other ∈ rest, le item other = true)
    (after : ∀ item ∈ left, ∀ other ∈ others, le item other = false) :
    (taken ++ left).merge (others ++ rest) le = taken.merge others le ++ left.merge rest le := by
  induction taken generalizing others with
  | nil =>
      induction others with
      | nil => rw [List.nil_append, List.nil_append, List.nil_merge, List.nil_append]
      | cons other more ih =>
          have later := ih (fun item member next among =>
            after item member next (List.mem_cons_of_mem other among))
          rw [List.nil_append, List.nil_merge] at later ⊢
          cases left with
          | nil => rw [List.nil_merge, List.nil_merge]
          | cons item remaining =>
              have larger := after item List.mem_cons_self other List.mem_cons_self
              rw [List.cons_append,
                List.cons_merge_cons_neg le _ _ (Bool.eq_false_iff.mp larger), later,
                List.cons_append]
  | cons item remaining ihTaken =>
      have fewer : ∀ next ∈ remaining, ∀ other ∈ rest, le next other = true :=
        fun next member => before next (List.mem_cons_of_mem item member)
      induction others with
      | nil =>
          have later := ihTaken [] fewer after
          rw [List.nil_append, List.merge_right] at later ⊢
          cases rest with
          | nil => rw [List.merge_right, List.merge_right]
          | cons other more =>
              have smaller := before item List.mem_cons_self other List.mem_cons_self
              rw [List.cons_append, List.cons_merge_cons_pos le _ _ smaller, later,
                List.cons_append]
      | cons other more ihOthers =>
          have tail : ∀ next ∈ left, ∀ further ∈ more, le next further = false :=
            fun next member further among =>
              after next member further (List.mem_cons_of_mem other among)
          by_cases first : le item other = true
          · have later := ihTaken (other :: more) fewer after
            rw [List.cons_append] at later
            rw [List.cons_append, List.cons_append, List.cons_merge_cons_pos le _ _ first, later,
              List.cons_merge_cons_pos le _ _ first, List.cons_append]
          · have later := ihOthers tail
            rw [List.cons_append] at later
            rw [List.cons_append, List.cons_append, List.cons_merge_cons_neg le _ _ first, later,
              List.cons_merge_cons_neg le _ _ first, List.cons_append]

/-- Items that stand in order are split and merged back to the same queue. -/
theorem merge_filter (condition : Item → Bool) (queue : List Item)
    (inOrder : queue.Pairwise (fun earlier later =>
      le earlier later = true ∧ le later earlier = false)) :
    (queue.filter condition).merge (queue.filter (fun item => !condition item)) le = queue := by
  induction queue with
  | nil => exact List.nil_merge _
  | cons item rest ih =>
      obtain ⟨first, others⟩ := List.pairwise_cons.mp inOrder
      have later := ih others
      by_cases holds : condition item = true
      · rw [List.filter_cons_of_pos holds, List.filter_cons_of_neg (by rw [holds]; decide)]
        have split := merge_append le [item] (rest.filter condition) []
          (rest.filter (fun other => !condition other))
          (fun next member other among => by
            rw [List.mem_singleton.mp member]
            exact (first other (List.mem_filter.mp among).1).1)
          (fun _ _ other among => by cases among)
        rw [List.singleton_append, List.nil_append, List.merge_right, later] at split
        exact split
      · have fails := Bool.eq_false_iff.mpr holds
        rw [List.filter_cons_of_neg holds, List.filter_cons_of_pos (by rw [fails]; rfl)]
        have split := merge_append le [] (rest.filter condition) [item]
          (rest.filter (fun other => !condition other))
          (fun _ member _ _ => by cases member)
          (fun next member other among => by
            rw [List.mem_singleton.mp among]
            exact (first next (List.mem_filter.mp member).1).2)
        rw [List.nil_append, List.singleton_append, List.nil_merge, later] at split
        exact split

end ChampSim.Merge

/-
One set of an LRU table, ranked by use.

The used blocks of a set, ordered from the latest use to the earliest one, are
its recency list. The lemmas say what one replaced block does to that order and
which blocks the one scan of `fill` finds.
-/

import ChampSim.Library.Recency
import ChampSim.Msl.LruTable
import Mathlib.Data.Prod.Lex
import Mathlib.Data.List.Nodup
import Mathlib.Data.List.Perm.Basic

set_option autoImplicit false

namespace ChampSim.Msl

variable {T Tag : Type} [DecidableEq Tag]

namespace Block

variable (tagProjection : T → Tag)

def tagOf (block : Block T) : Tag := tagProjection block.data

def pairOf (block : Block T) : Tag × T := (tagProjection block.data, block.data)

/-- The rank that `fill` gives to a block: a match of the tag before every other
block, a later use before an earlier one, an unused block last. -/
def rank (tag : Tag) (block : Block T) : Nat ×ₗ Nat :=
  if 0 < block.lastUsed then
    toLex (if tagProjection block.data = tag then 1 else 0, block.lastUsed)
  else toLex (0, 0)

variable {tagProjection}

theorem matchFunc_iff (tag : Tag) (block : Block T) :
    matchFunc tagProjection tag block = true ↔
      0 < block.lastUsed ∧ tagProjection block.data = tag := by
  simp [matchFunc]

omit [DecidableEq Tag] in
theorem valid_next (count : Nat) (elem : T) : valid ⟨count + 1, elem⟩ = true :=
  decide_eq_true (Nat.succ_pos count)

theorem rank_unused (tag : Tag) (block other : Block T) (unused : block.lastUsed = 0) :
    rank tagProjection tag block ≤ rank tagProjection tag other := by
  have least : rank tagProjection tag block = toLex (0, 0) := by simp [rank, unused]
  rw [least]
  unfold rank
  split
  · apply Prod.Lex.toLex_le_toLex.mpr
    split
    · exact Or.inl Nat.zero_lt_one
    · exact Or.inr ⟨rfl, Nat.zero_le _⟩
  · exact le_refl _

theorem rank_used (tag : Tag) (block : Block T) (used : 0 < block.lastUsed) :
    rank tagProjection tag block =
      toLex (if tagProjection block.data = tag then 1 else 0, block.lastUsed) := if_pos used

theorem rank_match (tag : Tag) (block other : Block T) (used : 0 < block.lastUsed)
    (same : tagProjection block.data = tag)
    (higher : rank tagProjection tag block ≤ rank tagProjection tag other) :
    0 < other.lastUsed ∧ tagProjection other.data = tag := by
  rw [rank_used tag block used, if_pos same] at higher
  unfold rank at higher
  by_cases usedToo : 0 < other.lastUsed
  · refine ⟨usedToo, ?_⟩
    by_contra differs
    rw [if_pos usedToo, if_neg differs] at higher
    rcases Prod.Lex.toLex_le_toLex.mp higher with below | ⟨equal, _later⟩
    · exact absurd below (by simp)
    · exact absurd equal (by simp)
  · rw [if_neg usedToo] at higher
    rcases Prod.Lex.toLex_le_toLex.mp higher with below | ⟨equal, _later⟩
    · exact absurd below (by simp)
    · exact absurd equal (by simp)

theorem rank_least (tag : Tag) (block other : Block T) (unused : block.lastUsed = 0)
    (lower : rank tagProjection tag other ≤ rank tagProjection tag block) :
    other.lastUsed = 0 := by
  by_contra used
  rw [rank_used tag other (Nat.pos_of_ne_zero used)] at lower
  have least : rank tagProjection tag block = toLex (0, 0) := by simp [rank, unused]
  rw [least] at lower
  rcases Prod.Lex.toLex_le_toLex.mp lower with below | ⟨_equal, earlier⟩
  · exact absurd below (Nat.not_lt_zero _)
  · exact used (Nat.le_zero.mp earlier)

theorem rank_other (tag : Tag) (block other : Block T) (used : 0 < block.lastUsed)
    (usedToo : 0 < other.lastUsed) (differs : tagProjection block.data ≠ tag)
    (differsToo : tagProjection other.data ≠ tag)
    (lower : rank tagProjection tag block ≤ rank tagProjection tag other) :
    block.lastUsed ≤ other.lastUsed := by
  rw [rank_used tag block used, rank_used tag other usedToo, if_neg differs,
    if_neg differsToo] at lower
  rcases Prod.Lex.toLex_le_toLex.mp lower with below | ⟨_equal, earlier⟩
  · exact absurd below (Nat.lt_irrefl _)
  · exact earlier

/-- The comparison of `fill` agrees with the ranks, although it calls an unused
block less than itself. -/
theorem matchAndCheck_agrees (tag : Tag) :
    Scan.Agrees (matchAndCheck tagProjection tag) (rank tagProjection tag) := by
  constructor
  · intro x y answer
    rcases Nat.eq_zero_or_pos x.lastUsed with unused | used
    · exact rank_unused tag x y unused
    · simp only [matchAndCheck, used, decide_true, Bool.not_true, Bool.false_or,
        Bool.and_eq_true, decide_eq_true_eq] at answer
      obtain ⟨usedToo, better⟩ := answer
      rw [rank_used tag x used, rank_used tag y usedToo]
      apply Prod.Lex.toLex_le_toLex.mpr
      by_cases xMatch : tagProjection x.data = tag <;>
        by_cases yMatch : tagProjection y.data = tag <;>
        simp [xMatch, yMatch] at better ⊢
      · omega
      · omega
  · intro x y answer
    rcases Nat.eq_zero_or_pos y.lastUsed with unused | usedToo
    · exact rank_unused tag y x unused
    · simp only [matchAndCheck, usedToo, decide_true, Bool.true_and, Bool.or_eq_false_iff,
        Bool.not_eq_false', decide_eq_true_eq] at answer
      obtain ⟨used, worse⟩ := answer
      rw [rank_used tag x used, rank_used tag y usedToo]
      apply Prod.Lex.toLex_le_toLex.mpr
      by_cases xMatch : tagProjection x.data = tag <;>
        by_cases yMatch : tagProjection y.data = tag <;>
        simp [xMatch, yMatch] at worse ⊢
      · omega
      · omega

end Block

/-- The used blocks of a set, from the latest use to the earliest one. -/
structure Ranking (tagProjection : T → Tag) (count : Nat) (row order : List (Block T)) : Prop where
  same : order.Perm (row.filter Block.valid)
  recent : order.Pairwise (fun newer older => older.lastUsed < newer.lastUsed)
  unique : (order.map (Block.tagOf tagProjection)).Nodup
  counted : ∀ block ∈ order, block.lastUsed ≤ count

namespace Ranking

variable {tagProjection : T → Tag} {count : Nat} {row order : List (Block T)}

omit [DecidableEq Tag] in
theorem mono (ranking : Ranking tagProjection count row order) (later : Nat)
    (grown : count ≤ later) : Ranking tagProjection later row order :=
  ⟨ranking.same, ranking.recent, ranking.unique,
    fun block member => (ranking.counted block member).trans grown⟩

omit [DecidableEq Tag] in
theorem mem_iff (ranking : Ranking tagProjection count row order) (block : Block T) :
    block ∈ order ↔ block ∈ row ∧ 0 < block.lastUsed := by
  rw [ranking.same.mem_iff, List.mem_filter]
  exact and_congr_right fun _member => decide_eq_true_iff

omit [DecidableEq Tag] in
theorem length_le (ranking : Ranking tagProjection count row order) :
    order.length ≤ row.length := by
  rw [ranking.same.length_eq]
  exact List.length_filter_le _ _

omit [DecidableEq Tag] in
theorem eq_of_tag (ranking : Ranking tagProjection count row order) (one other : Block T)
    (member : one ∈ order) (memberToo : other ∈ order)
    (tags : tagProjection one.data = tagProjection other.data) : one = other :=
  List.inj_on_of_nodup_map ranking.unique member memberToo tags

theorem others_pairs (order : List (Block T)) (tag : Tag) :
    Recency.others tag (order.map (Block.pairOf tagProjection)) =
      (order.filter (fun block => tagProjection block.data ≠ tag)).map
        (Block.pairOf tagProjection) := by
  unfold Recency.others
  rw [List.filter_map]
  rfl

theorem replaced {index : Nat} {old : Block T} (place : row[index]? = some old) (fresh : Block T) :
    ∃ kept : List (Block T),
      (row.filter Block.valid).Perm ([old].filter Block.valid ++ kept) ∧
        ((row.set index fresh).filter Block.valid).Perm ([fresh].filter Block.valid ++ kept) := by
  obtain ⟨within, value⟩ := List.getElem?_eq_some_iff.mp place
  have cut : ∀ block : Block T, row.set index block =
      row.take index ++ block :: row.drop (index + 1) := by
    intro block
    rw [List.set_eq_take_append_cons_drop, if_pos within]
  have itself : row = row.take index ++ old :: row.drop (index + 1) := by
    rw [← cut old, ← value, List.set_getElem_self]
  have moved : ∀ block : Block T,
      ((row.take index ++ block :: row.drop (index + 1)).filter Block.valid).Perm
        ([block].filter Block.valid ++
          (row.take index ++ row.drop (index + 1)).filter Block.valid) := by
    intro block
    rw [← List.filter_append]
    exact List.perm_middle.filter _
  refine ⟨(row.take index ++ row.drop (index + 1)).filter Block.valid, ?_, ?_⟩
  · have moves := moved old
    rw [← itself] at moves
    exact moves
  · rw [cut fresh]
    exact moved fresh

omit [DecidableEq Tag] in
theorem use (ranking : Ranking tagProjection count row order) (rest : List (Block T))
    (next : List (Block T)) (elem : T) (fewer : rest.Sublist order)
    (same : (next.filter Block.valid).Perm (⟨count + 1, elem⟩ :: rest))
    (other : ∀ block ∈ rest, tagProjection block.data ≠ tagProjection elem) :
    Ranking tagProjection (count + 1) next (⟨count + 1, elem⟩ :: rest) := by
  refine ⟨same.symm, ?_, ?_, ?_⟩
  · refine List.pairwise_cons.mpr ⟨?_, List.Pairwise.sublist fewer ranking.recent⟩
    intro block member
    exact Nat.lt_succ_of_le (ranking.counted block (fewer.subset member))
  · rw [List.map_cons, List.nodup_cons]
    refine ⟨?_, ranking.unique.sublist (fewer.map _)⟩
    intro present
    obtain ⟨block, member, tags⟩ := List.mem_map.mp present
    exact other block member tags
  · intro block member
    rcases List.mem_cons.mp member with newest | older
    · rw [newest]
    · exact (ranking.counted block (fewer.subset older)).trans (Nat.le_succ count)

theorem others_perm (ranking : Ranking tagProjection count row order) (old : Block T)
    (kept : List (Block T)) (cut : (row.filter Block.valid).Perm (old :: kept)) :
    (order.filter (fun block => tagProjection block.data ≠ tagProjection old.data)).Perm kept := by
  have ordered : order.Perm (old :: kept) := ranking.same.trans cut
  have tags : ((old :: kept).map (Block.tagOf tagProjection)).Nodup :=
    (ordered.map _).nodup_iff.mp ranking.unique
  rw [List.map_cons, List.nodup_cons] at tags
  have stays : kept.filter (fun block => tagProjection block.data ≠ tagProjection old.data) =
      kept := by
    apply List.filter_eq_self.mpr
    intro block present
    apply decide_eq_true
    intro same
    exact tags.1 (List.mem_map.mpr ⟨block, present, same⟩)
  have filtered := ordered.filter
    (fun block => decide (tagProjection block.data ≠ tagProjection old.data))
  rw [List.filter_cons_of_neg (by simp), stays] at filtered
  exact filtered

theorem find_pair (ranking : Ranking tagProjection count row order) (old : Block T)
    (member : old ∈ order) :
    (order.map (Block.pairOf tagProjection)).find?
        (fun pair => pair.1 = tagProjection old.data) = some (Block.pairOf tagProjection old) := by
  cases found : (order.map (Block.pairOf tagProjection)).find?
      (fun pair => pair.1 = tagProjection old.data) with
  | none =>
      have absent := List.find?_eq_none.mp found _ (List.mem_map_of_mem member)
      exact absurd (decide_eq_true rfl) absent
  | some pair =>
      have isTag := List.find?_some found
      have tags : pair.1 = tagProjection old.data := of_decide_eq_true isTag
      obtain ⟨block, present, same⟩ := List.mem_map.mp (List.mem_of_find?_eq_some found)
      rw [← same] at tags
      rw [← same, ranking.eq_of_tag block old present member tags]

/-- What `check_hit` and `invalidate` search for. -/
theorem find_hit (ranking : Ranking tagProjection count row order) (tag : Tag)
    (hit : Scan.Found (Block T))
    (found : Scan.findIf (Block.matchFunc tagProjection tag) row = some hit) :
    hit.item ∈ order ∧ tagProjection hit.item.data = tag ∧ row[hit.index]? = some hit.item := by
  obtain ⟨place, isMatch⟩ := Scan.findIf_some _ _ _ found
  obtain ⟨used, same⟩ := (Block.matchFunc_iff tag hit.item).mp isMatch
  exact ⟨(ranking.mem_iff _).mpr ⟨List.mem_of_getElem? place, used⟩, same, place⟩

theorem find_miss (ranking : Ranking tagProjection count row order) (tag : Tag)
    (missed : Scan.findIf (Block.matchFunc tagProjection tag) row = none) :
    (order.map (Block.pairOf tagProjection)).find? (fun pair => pair.1 = tag) = none := by
  rw [List.find?_eq_none]
  intro pair present same
  obtain ⟨block, member, isPair⟩ := List.mem_map.mp present
  obtain ⟨inRow, used⟩ := (ranking.mem_iff block).mp member
  have unmatched := (Scan.findIf_none _ _).mp missed block inRow
  have tags : tagProjection block.data = tag := by
    rw [← of_decide_eq_true same, ← isPair]
    rfl
  rw [(Block.matchFunc_iff tag block).mpr ⟨used, tags⟩] at unmatched
  exact absurd unmatched (by simp)

theorem reuse (ranking : Ranking tagProjection count row order) {index : Nat} {old : Block T}
    (place : row[index]? = some old) (member : old ∈ order) (elem : T)
    (tags : tagProjection old.data = tagProjection elem) :
    Ranking tagProjection (count + 1) (row.set index ⟨count + 1, elem⟩)
      (⟨count + 1, elem⟩ ::
        order.filter (fun block => tagProjection block.data ≠ tagProjection elem)) := by
  have used : old.valid = true := decide_eq_true ((ranking.mem_iff old).mp member).2
  obtain ⟨kept, before, after⟩ := replaced place ⟨count + 1, elem⟩
  rw [List.filter_cons_of_pos used] at before
  rw [List.filter_cons_of_pos (Block.valid_next count elem)] at after
  have stays := ranking.others_perm old kept before
  rw [tags] at stays
  refine ranking.use _ _ elem List.filter_sublist (after.trans (stays.symm.cons _)) ?_
  intro block present
  exact of_decide_eq_true (List.mem_filter.mp present).2

omit [DecidableEq Tag] in
theorem takeUnused (ranking : Ranking tagProjection count row order) {index : Nat} {old : Block T}
    (place : row[index]? = some old) (unused : old.lastUsed = 0) (elem : T)
    (new : ∀ block ∈ order, tagProjection block.data ≠ tagProjection elem) :
    Ranking tagProjection (count + 1) (row.set index ⟨count + 1, elem⟩)
      (⟨count + 1, elem⟩ :: order) := by
  have notValid : ¬ old.valid = true := by simp [Block.valid, unused]
  obtain ⟨kept, before, after⟩ := replaced place ⟨count + 1, elem⟩
  rw [List.filter_cons_of_neg notValid] at before
  rw [List.filter_cons_of_pos (Block.valid_next count elem)] at after
  have stays : order.Perm kept := ranking.same.trans before
  exact ranking.use _ _ elem (List.Sublist.refl order) (after.trans (stays.symm.cons _)) new

omit [DecidableEq Tag] in
theorem takeUsed (ranking : Ranking tagProjection count row order) {index : Nat} {old : Block T}
    (place : row[index]? = some old) (rest : List (Block T)) (last : order = rest ++ [old])
    (elem : T) (new : ∀ block ∈ order, tagProjection block.data ≠ tagProjection elem) :
    Ranking tagProjection (count + 1) (row.set index ⟨count + 1, elem⟩)
      (⟨count + 1, elem⟩ :: rest) := by
  have member : old ∈ order := by
    rw [last]
    exact List.mem_append_right rest (List.mem_singleton_self old)
  have used : old.valid = true := decide_eq_true ((ranking.mem_iff old).mp member).2
  obtain ⟨kept, before, after⟩ := replaced place ⟨count + 1, elem⟩
  rw [List.filter_cons_of_pos used] at before
  rw [List.filter_cons_of_pos (Block.valid_next count elem)] at after
  have stays : (old :: rest).Perm (old :: kept) := by
    refine List.Perm.trans ?_ (ranking.same.trans before)
    rw [last]
    exact (List.perm_append_singleton old rest).symm
  have fewer : rest.Sublist order := by
    rw [last]
    exact List.sublist_append_left rest [old]
  refine ranking.use _ _ elem fewer (after.trans ((stays.cons_inv).symm.cons _)) ?_
  intro block present
  exact new block (fewer.subset present)

theorem drop [Inhabited T] (ranking : Ranking tagProjection count row order) {index : Nat}
    {old : Block T} (place : row[index]? = some old) (member : old ∈ order) :
    Ranking tagProjection count (row.set index default)
      (order.filter (fun block => tagProjection block.data ≠ tagProjection old.data)) := by
  have used : old.valid = true := decide_eq_true ((ranking.mem_iff old).mp member).2
  have notValid : ¬ (default : Block T).valid = true := by
    exact of_decide_eq_false rfl
  obtain ⟨kept, before, after⟩ := replaced place (default : Block T)
  rw [List.filter_cons_of_pos used] at before
  rw [List.filter_cons_of_neg notValid] at after
  have stays := ranking.others_perm old kept before
  refine ⟨stays.trans after.symm, List.Pairwise.sublist List.filter_sublist ranking.recent,
    ranking.unique.sublist (List.filter_sublist.map _), ?_⟩
  intro block present
  exact ranking.counted block (List.mem_filter.mp present).1

/-- The used block of the lowest rank is the last one of a full set without the tag. -/
theorem lowest_last (ranking : Ranking tagProjection count row order) (tag : Tag)
    (lowest : Block T) (member : lowest ∈ order)
    (new : ∀ block ∈ order, tagProjection block.data ≠ tag)
    (low : ∀ block ∈ row, Block.rank tagProjection tag lowest ≤ Block.rank tagProjection tag block) :
    order = order.dropLast ++ [lowest] := by
  have some : order ≠ [] := List.ne_nil_of_mem member
  have cut := List.dropLast_append_getLast some
  rw [← cut] at member
  rcases List.mem_append.mp member with earlier | isLast
  · have present := List.getLast_mem some
    obtain ⟨inRow, usedToo⟩ := (ranking.mem_iff _).mp present
    have older := List.dropLast_subset order earlier
    have ordered := ranking.recent
    rw [← cut, List.pairwise_append] at ordered
    have less := ordered.2.2 lowest earlier _ (List.mem_singleton_self _)
    have least := Block.rank_other tag lowest _ ((ranking.mem_iff lowest).mp older).2 usedToo
      (new lowest older) (new _ present) (low _ inRow)
    omega
  · rw [List.mem_singleton.mp isLast]
    exact cut.symm

/-- `fill` replaces the block of the tag, or an unused one, or the one used longest ago. -/
theorem fill (ranking : Ranking tagProjection count row order) (elem : T)
    (miss hit : Scan.Found (Block T))
    (spans : Scan.Spans (Block.rank tagProjection (tagProjection elem)) row (miss, hit)) :
    ∃ next, Ranking tagProjection (count + 1)
        (row.set (if tagProjection hit.item.data = tagProjection elem then hit.index
          else miss.index) ⟨count + 1, elem⟩) next ∧
      Recency.insert row.length (tagProjection elem) elem
        (order.map (Block.pairOf tagProjection)) = next.map (Block.pairOf tagProjection) := by
  have hitInRow : hit.item ∈ row := List.mem_of_getElem? spans.largest
  have missInRow : miss.item ∈ row := List.mem_of_getElem? spans.smallest
  have length_map : (order.map (Block.pairOf tagProjection)).length = order.length :=
    List.length_map _
  unfold Recency.insert
  rw [length_map]
  by_cases present : ∃ block ∈ order, tagProjection block.data = tagProjection elem
  · obtain ⟨block, member, same⟩ := present
    obtain ⟨inRow, used⟩ := (ranking.mem_iff block).mp member
    obtain ⟨hitUsed, hitMatch⟩ :=
      Block.rank_match _ block hit.item used same (spans.highest block inRow)
    have hitMember : hit.item ∈ order := (ranking.mem_iff hit.item).mpr ⟨hitInRow, hitUsed⟩
    have known : (order.map (Block.pairOf tagProjection)).any
        (fun pair => pair.1 = tagProjection elem) = true := by
      rw [List.any_map]
      exact List.any_eq_true.mpr ⟨block, member, decide_eq_true same⟩
    rw [if_pos hitMatch, if_pos known, others_pairs]
    exact ⟨_, ranking.reuse spans.largest hitMember elem hitMatch, rfl⟩
  · have new : ∀ block ∈ order, tagProjection block.data ≠ tagProjection elem := by
      intro block member same
      exact present ⟨block, member, same⟩
    have unknown : ¬ (order.map (Block.pairOf tagProjection)).any
        (fun pair => pair.1 = tagProjection elem) = true := by
      rw [List.any_map]
      intro known
      obtain ⟨block, member, same⟩ := List.any_eq_true.mp known
      exact new block member (of_decide_eq_true same)
    rw [if_neg unknown]
    -- without a used match, an unused block in the row leaves room for the new pair
    have room : ∀ block ∈ row, block.lastUsed = 0 → order.length < row.length := by
      intro block inRow unused
      rw [ranking.same.length_eq]
      refine List.length_filter_lt_length_iff_exists.mpr ⟨block, inRow, ?_⟩
      simp [Block.valid, unused]
    by_cases hitMatch : tagProjection hit.item.data = tagProjection elem
    · have hitUnused : hit.item.lastUsed = 0 := by
        by_contra used
        exact new _ ((ranking.mem_iff _).mpr ⟨hitInRow, Nat.pos_of_ne_zero used⟩) hitMatch
      rw [if_pos hitMatch, if_pos (room _ hitInRow hitUnused)]
      exact ⟨_, ranking.takeUnused spans.largest hitUnused elem new, rfl⟩
    · rw [if_neg hitMatch]
      rcases Nat.eq_zero_or_pos miss.item.lastUsed with missUnused | missUsed
      · rw [if_pos (room _ missInRow missUnused)]
        exact ⟨_, ranking.takeUnused spans.smallest missUnused elem new, rfl⟩
      · have allValid : row.filter Block.valid = row := by
          apply List.filter_eq_self.mpr
          intro block inRow
          apply decide_eq_true
          apply Nat.pos_of_ne_zero
          intro unused
          have missToo := Block.rank_least (tagProjection elem) block miss.item unused
            (spans.lowest block inRow)
          omega
        have full : order.length = row.length := by
          rw [ranking.same.length_eq, allValid]
        have someWay : row.length ≠ 0 := by
          intro none
          rw [List.length_eq_zero_iff.mp none] at missInRow
          exact List.not_mem_nil missInRow
        have missMember : miss.item ∈ order :=
          (ranking.mem_iff miss.item).mpr ⟨missInRow, missUsed⟩
        have last := ranking.lowest_last _ miss.item missMember new spans.lowest
        rw [if_neg (by omega), if_neg someWay, ← List.map_dropLast]
        exact ⟨_, ranking.takeUsed spans.smallest _ last elem new, rfl⟩

end Ranking

end ChampSim.Msl

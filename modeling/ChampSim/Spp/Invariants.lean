/-
What holds of the tables of the signature path prefetcher in every run: the
ranks of the signature table are a permutation, the counters of a pattern set
stay below the one of its signature, and a replacement always finds a victim.
-/

import ChampSim.Library.Scan
import ChampSim.Spp.Steps
import Mathlib.Algebra.Order.BigOperators.Group.Finset

set_option autoImplicit false

namespace ChampSim.Spp

open Outcome
open Ranks (IsRanking)

variable {Allowed : Fault → Prop} {config : SppConfig}

/-! ### The signature table -/

namespace SignatureTable

variable {st : SignatureTable}

theorem victimWay_isSome (ranking : IsRanking st.lru.cells) : ∃ way, st.victimWay = some way := by
  obtain ⟨way, last⟩ := ranking.exists_rank (stWay - 1) (by decide)
  apply Option.isSome_iff_exists.mp
  unfold victimWay
  rw [List.find?_isSome]
  exact ⟨way, List.mem_finRange way, decide_eq_true last⟩

theorem promote_eq (ranking : IsRanking st.lru.cells) (used : Fin stWay) :
    st.promote used = .ok { st with lru := ⟨Ranks.promote st.lru.cells used⟩ } := by
  unfold promote
  apply if_neg
  intro wrong
  obtain ⟨way, _member, overflow⟩ := List.any_eq_true.mp wrong
  obtain ⟨before, over_size⟩ := of_decide_eq_true overflow
  have below := ranking.aged_lt used way
  unfold Ranks.aged at below
  rw [if_pos before] at below
  omega

theorem hit_lru (way : Fin stWay) (pageOffset : Nat) : (st.hit way pageOffset).st.lru = st.lru := by
  unfold hit
  simp only
  split
  · rfl
  · rfl

theorem bootstrap_lru (ghr : GlobalRegister) (way : Fin stWay) (pageOffset : Nat) :
    (st.bootstrap ghr way pageOffset).st.lru = st.lru := by
  unfold bootstrap
  split
  · rfl
  · rfl

theorem hit_delta (way : Fin stWay) (pageOffset : Nat)
    (trains : (st.hit way pageOffset).lastSig ≠ 0) : (st.hit way pageOffset).delta ≠ 0 := by
  unfold hit at trains ⊢
  simp only at trains ⊢
  split
  · rename_i moved
    exact moved
  · rename_i still
    rw [if_neg still] at trains
    exact absurd rfl trains

theorem bootstrap_lastSig (ghr : GlobalRegister) (way : Fin stWay) (pageOffset : Nat) :
    (st.bootstrap ghr way pageOffset).lastSig = 0 := by
  unfold bootstrap
  split
  · rfl
  · rfl

theorem miss_ends (ranking : IsRanking st.lru.cells) (partialPage pageOffset : Nat) :
    ∃ way filled, st.miss partialPage pageOffset = .ok (way, filled) ∧ filled.lru = st.lru := by
  unfold miss
  split
  · exact ⟨_, _, rfl, rfl⟩
  · obtain ⟨way, found⟩ := victimWay_isSome ranking
    rw [found]
    exact ⟨way, _, rfl, rfl⟩

theorem readAndUpdateSig_ends (ranking : IsRanking st.lru.cells) (ghr : GlobalRegister)
    (addr : Address) :
    Ends (fun _ => False) (st.readAndUpdateSig config ghr addr) (fun read =>
      IsRanking read.st.lru.cells ∧ (read.lastSig ≠ 0 → read.delta ≠ 0)) := by
  unfold readAndUpdateSig
  split
  · rename_i way _found
    have same : IsRanking (st.hit way (config.pageOffset addr)).st.lru.cells := by
      rw [hit_lru]
      exact ranking
    simp only
    rw [promote_eq same]
    exact ⟨same.promote way, hit_delta way _⟩
  · obtain ⟨way, filled, found, kept⟩ :=
      miss_ends ranking (config.partialPage addr) (config.pageOffset addr)
    have same : IsRanking (filled.bootstrap ghr way (config.pageOffset addr)).st.lru.cells := by
      rw [bootstrap_lru, kept]
      exact ranking
    rw [found]
    change Ends _ ((filled.bootstrap ghr way (config.pageOffset addr)).st.promote way >>= _) _
    rw [promote_eq same]
    exact ⟨same.promote way, fun trains => absurd (bootstrap_lastSig ghr way _) trains⟩

end SignatureTable

/-! ### The pattern table -/

namespace PatternSet

variable {set : PatternSet}

def total (set : PatternSet) : Nat := ∑ way, set.cDelta.cells way

/-- A set that has not been used, or one whose ways count less than its signature. -/
def Counted (set : PatternSet) : Prop :=
  (set.cSig = 0 ∧ ∀ way, set.cDelta.cells way = 0 ∧ set.delta.cells way = 0) ∨
    (set.total < set.cSig ∧ set.cSig ≤ cSigMax)

theorem Counted.total_le (counted : Counted set) : set.total ≤ set.cSig := by
  rcases counted with ⟨_unused, zero⟩ | ⟨less, _most⟩
  · have nothing : set.total = 0 := Finset.sum_eq_zero (fun way _member => (zero way).1)
    omega
  · exact less.le

theorem Counted.cSig_le (counted : Counted set) : set.cSig ≤ cSigMax := by
  rcases counted with ⟨unused, _zero⟩ | ⟨_less, most⟩
  · rw [unused]
    exact Nat.zero_le _
  · exact most

/-- Dividing the counters one by one loses at least what dividing their sum does. -/
theorem sum_div_le (counts : Fin ptWay → Nat) (divisor : Nat) (positive : 0 < divisor) :
    ∑ way, counts way / divisor ≤ (∑ way, counts way) / divisor := by
  rw [Nat.le_div_iff_mul_le positive, Finset.sum_mul]
  exact Finset.sum_le_sum (fun way _member => Nat.div_mul_le_self (counts way) divisor)

theorem countSig_counted (few : set.total ≤ set.cSig) (most : set.cSig ≤ cSigMax) :
    Counted set.countSig := by
  right
  unfold countSig
  split
  · rename_i overflow
    have halves := sum_div_le set.cDelta.cells 2 (by decide)
    change ∑ way, set.cDelta.cells way / 2 < (set.cSig + 1) / 2 ∧ (set.cSig + 1) / 2 ≤ cSigMax
    unfold total at few
    unfold cSigMax at most overflow ⊢
    omega
  · rename_i fits
    exact ⟨Nat.lt_succ_of_le few, Nat.not_lt.mp fits⟩

theorem victimWay_isSome (counted : Counted set) : ∃ way, set.victimWay = some way := by
  have low : set.cDelta.cells ⟨0, by decide⟩ < cSigMax := by
    rcases counted with ⟨_unused, zero⟩ | ⟨less, most⟩
    · rw [(zero _).1]
      decide
    · have single : set.cDelta.cells ⟨0, by decide⟩ ≤ set.total :=
        Finset.single_le_sum (fun way _member => Nat.zero_le (set.cDelta.cells way))
          (Finset.mem_univ _)
      omega
  apply Option.isSome_iff_exists.mp
  exact Scan.least_isSome set.cDelta.cells (List.finRange ptWay) (none, cSigMax)
    (Or.inr ⟨_, List.mem_finRange _, low⟩)

theorem update_ends (counted : Counted set) {currDelta : Int} (moved : currDelta ≠ 0) :
    Ends (fun _ => False) (set.update currDelta) Counted := by
  unfold update
  split
  · rename_i way found
    unfold deltaWay at found
    have holds : set.delta.cells way = currDelta := by
      simpa using List.find?_some found
    rcases counted with ⟨_unused, zero⟩ | ⟨less, most⟩
    · exact absurd (holds.symm.trans (zero way).2) moved
    · apply countSig_counted
      · have summed := CArray.sum_assign id set.cDelta way (set.cDelta.cells way + 1)
        unfold total at less ⊢
        simp only [id_eq] at summed ⊢
        omega
      · exact most
  · obtain ⟨way, found⟩ := victimWay_isSome counted
    rw [found]
    apply countSig_counted
    · have summed := CArray.sum_assign id set.cDelta way 0
      have few := counted.total_le
      unfold total at few ⊢
      simp only [id_eq] at summed ⊢
      omega
    · exact counted.cSig_le

theorem sum_shares (counted : Counted set) {percent : Nat} (most : percent ≤ 100) :
    ∑ way, percent * set.cDelta.cells way / set.cSig ≤ 93 := by
  rcases counted with ⟨unused, _zero⟩ | ⟨less, bounded⟩
  · have nothing : ∑ way, percent * set.cDelta.cells way / set.cSig = 0 := by
      apply Finset.sum_eq_zero
      intro way _member
      rw [unused, Nat.div_zero]
    omega
  · have positive : 0 < set.cSig := Nat.zero_lt_of_lt less
    have whole : percent * set.total ≤ 100 * set.total := Nat.mul_le_mul_right _ most
    have shared := sum_div_le (fun way => percent * set.cDelta.cells way) _ positive
    rw [← Finset.mul_sum] at shared
    apply shared.trans
    rw [← Nat.lt_succ_iff, Nat.div_lt_iff_lt_mul positive]
    change percent * set.total < _
    unfold cSigMax at bounded
    omega

theorem localConf_le (way : Fin ptWay) : set.localConf way ≤ 100 * set.cDelta.cells way / set.cSig :=
  Nat.div_le_div_right (Nat.mod_le _ _)

theorem sum_localConf (counted : Counted set) : ∑ way, set.localConf way < 100 := by
  have shares := sum_shares counted (Nat.le_refl 100)
  have local_le := Finset.sum_le_sum (fun way (_ : way ∈ Finset.univ) => set.localConf_le way)
  omega

end PatternSet

theorem updatePattern_ends {pt : PatternTable} (counted : ∀ index, (pt.cells index).Counted)
    (lastSig : Nat) {currDelta : Int} (moved : currDelta ≠ 0) :
    Ends (fun _ => False) (updatePattern pt lastSig currDelta) (fun next =>
      ∀ index, (next.cells index).Counted) := by
  unfold updatePattern
  apply (PatternSet.update_ends (counted (patternIndex lastSig)) moved).bind
  intro set setCounted
  change ∀ index, ((pt.assign (patternIndex lastSig) set).cells index).Counted
  intro index
  by_cases same : index = patternIndex lastSig
  · rw [same, CArray.cells_assign_self]
    exact setCounted
  · rw [CArray.cells_assign_other pt same]
    exact counted index

/-! ### Runs -/

namespace Prefetcher

/-- The invariant of the signature table and the pattern table. -/
structure Sound (spp : Prefetcher) : Prop where
  ranking : IsRanking spp.st.lru.cells
  counted : ∀ index, (spp.pt.cells index).Counted

theorem initial_sound : Sound initial where
  ranking := Ranks.id_isRanking
  counted := fun _index => Or.inl ⟨rfl, fun _way => ⟨rfl, rfl⟩⟩

theorem train_ends {pt : PatternTable} (counted : ∀ index, (pt.cells index).Counted)
    {read : SigRead} (moved : read.lastSig ≠ 0 → read.delta ≠ 0) :
    Ends (fun _ => False) (train pt read) (fun next => ∀ index, (next.cells index).Counted) := by
  unfold train
  split
  · rename_i trains
    exact updatePattern_ends counted read.lastSig (moved trains)
  · exact counted

/-- Where the lookahead of an access starts: with what the demand leaves of the counters, and with
tables that are sound. -/
structure Starts (config : SppConfig) (spp : Prefetcher) (addr : Address) (pt : PatternTable)
    (look : Lookahead config) : Prop where
  counted : ∀ index, (pt.cells index).Counted
  start : ∃ currSig, look = startLookahead config
    (check config spp.filter { spp.ghr with globalAccuracy := accuracy spp.ghr } addr
      .l2cDemand).2.1
    (check config spp.filter { spp.ghr with globalAccuracy := accuracy spp.ghr } addr
      .l2cDemand).2.2 addr currSig

/-- An access is its lookahead, on sound tables that it does not change. -/
theorem cacheOperate_ends {spp : Prefetcher} (sound : Sound spp) (addr : Address)
    (Post : Lookahead config → Prop)
    (looked : ∀ pt look, Starts config spp addr pt look →
      Ends Allowed (look.lookahead pt (config.pageNumber addr)) Post) :
    Ends Allowed (spp.cacheOperate config addr) (fun result => Sound result.1 ∧
      ∃ look, Post look ∧ result.1.filter = look.filter ∧ result.1.ghr = look.ghr ∧
        result.2 = look.prefetched) := by
  unfold cacheOperate
  apply (SignatureTable.readAndUpdateSig_ends sound.ranking _ addr).never.bind
  rintro read ⟨ranking, moved⟩
  apply (train_ends sound.counted moved).never.bind
  intro pt counted
  apply (looked pt _ ⟨counted, read.currSig, rfl⟩).bind
  intro look post
  exact ⟨⟨ranking, counted⟩, look, post, rfl, rfl, rfl⟩

end Prefetcher

namespace Run

/-- Only an unchecked subscript of a queue and the assertion of the global register can end an
access. -/
theorem step_sound (config : SppConfig) {state : Run} (sound : state.spp.Sound) (event : Event) :
    Ends (fun failure => failure = .queueOutOfBounds ∨ failure = .ghrVictim)
      (state.step config event) (fun next => next.spp.Sound) := by
  cases event with
  | operate addr =>
      unfold step
      refine (Prefetcher.cacheOperate_ends sound addr (fun _ => True) ?_).bind ?_
      · rintro pt look ⟨_counted, currSig, rfl⟩
        apply Lookahead.lookahead_ends pt _ (fun _ => True)
        · intro look _ placed
          apply (Lookahead.body_progress pt _ look placed).mono
          rintro ⟨next, goesOn⟩ _
          cases goesOn <;> trivial
        · trivial
        · exact ⟨Nat.le_refl 0, Nat.zero_le _⟩
      · rintro ⟨spp, prefetched⟩ ⟨sppSound, _look⟩
        exact sppSound
  | fill evictedAddr => exact ⟨sound.ranking, sound.counted⟩

theorem run_sound (config : SppConfig) (events : List Event) :
    Ends (fun failure => failure = .queueOutOfBounds ∨ failure = .ghrVictim)
      (initial.run config events) (fun state => state.spp.Sound) := by
  apply foldlM_ends (step config) (fun state => state.spp.Sound) events
  · intro state event _member holds
    exact step_sound config holds event
  · exact Prefetcher.initial_sound

/-- In every run the ranks of the signature table are a permutation, and the counters of every
pattern set keep their bounds, so that no replacement lacks a victim. -/
theorem run_tables (config : SppConfig) (events : List Event) :
    Ends (fun failure => failure = .queueOutOfBounds ∨ failure = .ghrVictim)
      (initial.run config events) (fun state =>
        (List.ofFn state.spp.st.lru.cells).Perm (List.range stWay) ∧
        ∀ index : Fin ptSet,
          (((state.spp.pt.cells index).cSig = 0 ∧
              ∀ way, (state.spp.pt.cells index).cDelta.cells way = 0) ∨
            ∑ way, (state.spp.pt.cells index).cDelta.cells way < (state.spp.pt.cells index).cSig) ∧
          (state.spp.pt.cells index).cSig ≤ cSigMax ∧
          ∑ way, (state.spp.pt.cells index).localConf way < 100) := by
  apply (run_sound config events).mono
  rintro state ⟨ranking, counted⟩
  refine ⟨ranking.perm_range, fun index => ⟨?_, (counted index).cSig_le,
    PatternSet.sum_localConf (counted index)⟩⟩
  rcases counted index with ⟨unused, zero⟩ | ⟨less, _most⟩
  · exact Or.inl ⟨unused, fun way => (zero way).1⟩
  · exact Or.inr less

end Run

end ChampSim.Spp

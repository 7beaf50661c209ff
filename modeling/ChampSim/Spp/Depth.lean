/-
How deep the lookahead of the signature path prefetcher goes: with an accuracy
of at most 100 the confidence of a step is at most 93 hundredths of the one
before, so that no access needs more than 34 entries of a queue.
-/

import ChampSim.Spp.Invariants

set_option autoImplicit false

namespace ChampSim.Spp

open Outcome

variable {config : SppConfig}

/-! ### The confidences of a step -/

theorem PatternSet.pfConf_le (set : PatternSet) {accuracy depth conf : Nat}
    (start : depth = 0 → conf = 100) (way : Fin ptWay) :
    set.pfConf accuracy depth conf way ≤
      (if depth ≠ 0 then accuracy else 100) * set.cDelta.cells way / set.cSig * conf / 100 := by
  unfold pfConf
  split
  · apply Nat.div_le_div_right
    apply (Nat.mod_le _ _).trans
    exact Nat.mul_le_mul_right conf (Nat.div_le_div_right (Nat.mod_le _ _))
  · rename_i first
    rw [start (not_not.mp first), Nat.mul_div_cancel _ (by decide)]
    exact set.localConf_le way

/-- All confidences of a step together are at most 93 hundredths of the one before. -/
theorem PatternSet.sum_pfConf {set : PatternSet} (counted : set.Counted) {accuracy depth conf : Nat}
    (accurate : accuracy ≤ 100) (start : depth = 0 → conf = 100) :
    ∑ way, set.pfConf accuracy depth conf way ≤ 93 * conf / 100 := by
  have percent : (if depth ≠ 0 then accuracy else 100) ≤ 100 := by
    split
    · exact accurate
    · exact Nat.le_refl 100
  have shares := Nat.mul_le_mul_right conf (sum_shares counted percent)
  rw [Finset.sum_mul] at shares
  calc ∑ way, set.pfConf accuracy depth conf way
      ≤ ∑ way, (if depth ≠ 0 then accuracy else 100) * set.cDelta.cells way / set.cSig * conf /
          100 := Finset.sum_le_sum (fun way _member => set.pfConf_le start way)
    _ ≤ (∑ way, (if depth ≠ 0 then accuracy else 100) * set.cDelta.cells way / set.cSig * conf) /
          100 := sum_div_le _ 100 (by decide)
    _ ≤ 93 * conf / 100 := Nat.div_le_div_right shares

namespace Lookahead

variable {look : Lookahead config}

/-- The confidence of a step, which the first step does not depend on. -/
structure Bounded (look : Lookahead config) : Prop where
  accurate : look.ghr.globalAccuracy ≤ 100
  conf : look.lookaheadConf ≤ 100
  first : look.depth = 0 → look.lookaheadConf = 100

theorem sum_confOf {pt : PatternTable} (counted : ∀ index, (pt.cells index).Counted)
    (bounded : Bounded look) :
    ((List.finRange ptWay).map (look.confOf pt)).sum ≤ 93 * look.lookaheadConf / 100 := by
  rw [← Fin.sum_univ_def]
  exact PatternSet.sum_pfConf (counted _) bounded.accurate bounded.first

theorem added_le (pt : PatternTable) (look : Lookahead config) :
    pfThreshold * look.added pt ≤ ((List.finRange ptWay).map (look.confOf pt)).sum := by
  unfold added
  induction List.finRange ptWay with
  | nil => exact Nat.le_refl 0
  | cons way rest ih =>
      rw [List.countP_cons, List.map_cons, List.sum_cons]
      simp only [decide_eq_true_eq]
      split
      · rw [Nat.mul_succ]
        omega
      · rw [Nat.add_zero]
        omega

end Lookahead

/-! ### The decay -/

def decayed (conf : Nat) : Nat := 93 * conf / 100

/-- How many steps can be confident after one with this confidence. -/
def reach : Nat → Nat → Nat
  | 0, _ => 0
  | steps + 1, conf =>
      if pfThreshold ≤ decayed conf then reach steps (decayed conf) + 1 else 0

/-- The entries that these steps take, one of them and a gap for each. -/
def growth (conf : Nat) : Nat := 2 * reach 16 conf

theorem decayed_mono {conf other : Nat} (less : conf ≤ other) : decayed conf ≤ decayed other :=
  Nat.div_le_div_right (Nat.mul_le_mul_left 93 less)

theorem reach_mono (steps : Nat) :
    ∀ {conf other : Nat}, conf ≤ other → reach steps conf ≤ reach steps other := by
  induction steps with
  | zero =>
      intro conf other _less
      exact Nat.le_refl 0
  | succ steps ih =>
      intro conf other less
      have decays := decayed_mono less
      unfold reach
      split
      · rename_i confident
        rw [if_pos (confident.trans decays)]
        exact Nat.succ_le_succ (ih decays)
      · exact Nat.zero_le _

theorem growth_table : ∀ conf < 101, ∀ ways < 4, 0 < ways → pfThreshold * ways ≤ decayed conf →
    ways + 1 + growth (decayed conf + pfThreshold - pfThreshold * ways) ≤ growth conf := by
  decide +kernel

/-- What a step adds and what the steps after it can add is within what could be added before. -/
theorem growth_step {conf ways next : Nat} (bounded : conf ≤ 100) (some : 0 < ways)
    (confident : pfThreshold ≤ next)
    (shared : next + pfThreshold * ways ≤ decayed conf + pfThreshold) :
    ways + 1 + growth next ≤ growth conf := by
  have decays : decayed conf ≤ 93 := decayed_mono bounded
  have few : pfThreshold * ways ≤ decayed conf := by omega
  have three : ways < 4 := by
    unfold pfThreshold at few
    omega
  have table := growth_table conf (Nat.lt_succ_of_le bounded) ways three some few
  have less : next ≤ decayed conf + pfThreshold - pfThreshold * ways := by omega
  have reaches := reach_mono 16 less
  unfold growth at table ⊢
  omega

/-! ### The loop -/

namespace Queues

variable (queues : Queues config)

theorem pending_append {head middle : Nat} (before : head ≤ middle) (count : Nat) :
    queues.pending head (middle + count) =
      queues.pending head middle + queues.pending middle (middle + count) := by
  induction count with
  | zero => rw [Nat.add_zero, pending_self, Nat.add_zero]
  | succ count ih =>
      rw [← Nat.add_assoc, pending_succ queues (by omega), pending_succ queues (by omega), ih,
        Nat.add_assoc]

theorem pending_all (head count : Nat) (confident : ∀ index, head ≤ index → index < head + count →
    pfThreshold ≤ queues.confidence index) : queues.pending head (head + count) = count := by
  induction count with
  | zero => exact pending_self queues head
  | succ count ih =>
      rw [← Nat.add_assoc, pending_succ queues (Nat.le_add_right head count),
        ih (fun index above below => confident index above (by omega)),
        if_pos (confident (head + count) (by omega) (by omega))]

theorem pending_congr {other : Queues config} {head tail : Nat}
    (same : ∀ index, index < tail → queues.confidence index = other.confidence index) :
    queues.pending head tail = other.pending head tail := by
  unfold pending
  apply List.countP_congr
  intro index member
  have bounds := List.mem_range'_1.mp member
  rcases Nat.lt_or_ge head tail with before | after
  · rw [same index (by omega)]
  · omega

end Queues

namespace Lookahead

variable {look read : Lookahead config} {pt : PatternTable}

def Barren (pt : PatternTable) (look : Lookahead config) : Prop :=
  (pt.cells (patternIndex look.currSig)).cSig = 0 ∨ look.added pt = 0

/-- The first pass, with the 100 that the queue starts with. -/
structure Fresh (look : Lookahead config) : Prop where
  pfQHead : look.pfQHead = 0
  pfQTail : look.pfQTail = 0
  lookaheadConf : look.lookaheadConf = 100
  depth : look.depth = 0
  first : look.queues.confidence 0 = 100
  others : ∀ index, 0 < index → look.queues.confidence index = 0

/-- Every pass so far has added entries. The last of them is at most two behind the tail. -/
structure Growing (look : Lookahead config) : Prop where
  bounded : Bounded look
  room : look.pfQTail + growth look.lookaheadConf ≤ 32
  two : 2 ≤ look.pfQTail
  near : look.pfQTail ≤ look.pfQHead + 2
  depth : look.depth ≠ 0
  entry : pfThreshold ≤ look.queues.confidence (look.pfQTail - 2)
  gap : look.queues.confidence (look.pfQTail - 1) < pfThreshold
  beyond : ∀ index, look.pfQTail ≤ index → look.queues.confidence index < pfThreshold

structure Ending (pt : PatternTable) (look : Lookahead config) : Prop where
  room : look.pfQTail ≤ 33
  quiet : ∀ index, look.pfQHead ≤ index → look.queues.confidence index < pfThreshold
  barren : Barren pt look

/-- What follows a pass that reads no confident way: the end, after at most one more pass. -/
theorem ending_of_read {result : Lookahead config × Bool}
    (stepped : Stepped read result) (goesOn : result.2 = true)
    (tail : read.pfQTail ≤ 33) (quiet : ∀ index, read.pfQHead + 1 ≤ index →
      read.queues.confidence index < pfThreshold)
    (barren : Barren pt result.1) : Ending pt result.1 := by
  have some := stepped.goesOn.mp goesOn
  have moved := stepped.pfQHead
  refine ⟨stepped.pfQTail.le.trans tail, ?_, barren⟩
  intro index above
  rw [stepped.queues]
  exact quiet index (by omega)

theorem stops_of_quiet {result : Lookahead config × Bool} (stepped : Stepped read result)
    (quiet : ∀ index, read.pfQHead ≤ index → read.queues.confidence index < pfThreshold) :
    result.2 = false := by
  have nothing : read.queues.pending read.pfQHead read.pfQTail = 0 :=
    Queues.pending_eq_zero (fun index above _below => quiet index above)
  rw [← Bool.not_eq_true]
  intro goesOn
  have some := stepped.goesOn.mp goesOn
  omega

theorem barren_of_quiet {result : Lookahead config × Bool} (readSome : ReadSome pt look read)
    (stepped : Stepped read result) (none : look.added pt = 0)
    (currSig : result.1.currSig = look.currSig) : Barren pt result.1 := by
  obtain ⟨conf, depth⟩ := readSome.quiet none
  have sameDepth : result.1.depth = look.depth := stepped.depth.trans depth
  have sameConf : result.1.lookaheadConf = 0 := stepped.lookaheadConf.trans conf
  right
  unfold added at none ⊢
  rw [List.countP_eq_zero] at none ⊢
  intro way member
  by_cases first : look.depth = 0
  · have before := none way member
    unfold confOf PatternSet.pfConf at before ⊢
    rw [if_neg (not_not_intro first)] at before
    rw [currSig, sameDepth, if_neg (not_not_intro first)]
    exact before
  · unfold confOf PatternSet.pfConf
    rw [sameDepth, if_pos first, sameConf]
    simp [mul32, pfThreshold]

/-- After a pass that found confident ways, there is room for all that can follow. -/
theorem growing_of_read {result : Lookahead config × Bool}
    (counted : ∀ index, (pt.cells index).Counted) (bounded : Bounded look)
    (readSome : ReadSome pt look read) (stepped : Stepped read result)
    (some : 0 < look.added pt) (ordered : look.pfQHead ≤ look.pfQTail)
    (room : look.pfQTail + growth look.lookaheadConf ≤ 32)
    (near : look.pfQTail ≤
      look.pfQHead + look.queues.pending look.pfQHead look.pfQTail + 1)
    (beyond : ∀ index, look.pfQTail + look.added pt ≤ index →
      look.queues.confidence index < pfThreshold) : Growing result.1 := by
  obtain ⟨confident, deeper, shared⟩ := readSome.some some
  have total : ((List.finRange ptWay).map (look.confOf pt)).sum ≤ decayed look.lookaheadConf :=
    sum_confOf counted bounded
  have grows := growth_step bounded.conf some confident (shared.trans (by omega))
  have decays : decayed look.lookaheadConf ≤ 93 := decayed_mono bounded.conf
  have part : pfThreshold * 1 ≤ pfThreshold * look.added pt := Nat.mul_le_mul_left _ some
  have tail : result.1.pfQTail = look.pfQTail + look.added pt + 1 :=
    stepped.pfQTail.trans readSome.pfQTail
  have conf : result.1.lookaheadConf = read.lookaheadConf := stepped.lookaheadConf
  have depth : result.1.depth = look.depth + 1 := stepped.depth.trans deeper
  have head := stepped.pfQHead
  rw [readSome.pfQHead, readSome.pfQTail] at head
  have older : read.queues.pending look.pfQHead look.pfQTail =
      look.queues.pending look.pfQHead look.pfQTail :=
    Queues.pending_congr read.queues (fun index below => readSome.outside index (Or.inl below))
  have newer := Queues.pending_all read.queues look.pfQTail (look.added pt) readSome.inside
  have joined := Queues.pending_append read.queues ordered (look.added pt)
  have last := Queues.pending_succ read.queues
    (ordered.trans (Nat.le_add_right look.pfQTail (look.added pt)))
  refine ⟨⟨?_, ?_, ?_⟩, ?_, ?_, ?_, ?_, ?_, ?_, ?_⟩
  · rw [stepped.globalAccuracy, readSome.ghr]
    exact bounded.accurate
  · omega
  · omega
  · rw [tail, conf]
    omega
  · omega
  · omega
  · omega
  · rw [stepped.queues]
    exact readSome.inside _ (by omega) (by omega)
  · rw [stepped.queues, readSome.outside _ (Or.inr (by omega))]
    exact beyond _ (by omega)
  · intro index above
    rw [stepped.queues, readSome.outside _ (Or.inr (by omega))]
    exact beyond _ (by omega)

theorem Growing.late (growing : Growing look) {index : Nat} (above : look.pfQTail - 1 ≤ index) :
    look.queues.confidence index < pfThreshold := by
  rcases Nat.eq_or_lt_of_le above with same | beyond
  · exact same ▸ growing.gap
  · exact growing.beyond index (by omega)

theorem Growing.waiting (growing : Growing look) :
    look.pfQTail ≤ look.pfQHead + look.queues.pending look.pfQHead look.pfQTail + 1 := by
  have two := growing.two
  have near := growing.near
  rcases Nat.lt_or_ge (look.pfQHead + 1) look.pfQTail with far | close
  · have place : look.pfQTail = look.pfQHead + 2 := by omega
    have entry := growing.entry
    have one := Queues.pending_succ look.queues (Nat.le_refl look.pfQHead)
    have more : look.queues.pending look.pfQHead (look.pfQHead + 2) =
        look.queues.pending look.pfQHead (look.pfQHead + 1) + _ :=
      Queues.pending_succ look.queues (Nat.le_succ look.pfQHead)
    rw [place, Nat.add_sub_cancel] at entry
    rw [if_pos entry, Queues.pending_self] at one
    rw [place, more, one]
    omega
  · omega

def InRoom (pt : PatternTable) (look : Lookahead config) : Prop :=
  (Fresh look ∧ look.ghr.globalAccuracy ≤ 100) ∨ Growing look ∨ Ending pt look

variable (page : BitVec 64) (large : 34 ≤ config.mshrSize)
variable (counted : ∀ index, (pt.cells index).Counted)

include large counted

theorem fresh_body (fresh : Fresh look) (accurate : look.ghr.globalAccuracy ≤ 100) :
    Ends (fun failure => failure = .ghrVictim) (look.body pt page) (fun result =>
      result.2 = true → Growing result.1 ∨ Ending pt result.1) := by
  have bounded : Bounded look := ⟨accurate, fresh.lookaheadConf.le, fun _ => fresh.lookaheadConf⟩
  have head := fresh.pfQHead
  have tail := fresh.pfQTail
  by_cases patterns : (pt.cells (patternIndex look.currSig)).cSig = 0
  · refine Ends.mono (body_none pt page look patterns (by omega) (fun full => by omega) rfl) ?_
    rintro result ⟨read, readNone, stepped, _same⟩ goesOn
    have quiet : result.2 = false := by
      apply stops_of_quiet stepped
      intro index _above
      rw [readNone.confidence]
      split
      · decide
      · rw [fresh.others index (by omega)]
        decide
    rw [goesOn] at quiet
    cases quiet
  · have few := added_le pt look
    have total := sum_confOf counted bounded
    rw [fresh.lookaheadConf] at total
    unfold pfThreshold at few
    refine Ends.mono (body_some pt page look patterns (by omega) (fun full => by omega) rfl) ?_
    rintro result ⟨read, readSome, stepped, same⟩ goesOn
    have readHead := readSome.pfQHead
    have readTail := readSome.pfQTail
    have later : ∀ index, 0 < index → look.queues.confidence index < pfThreshold := by
      intro index positive
      rw [fresh.others index positive]
      decide
    rcases Nat.eq_zero_or_pos (look.added pt) with none | some
    · right
      apply ending_of_read stepped goesOn (by omega) _
        (barren_of_quiet readSome stepped none (same none))
      intro index above
      rw [readSome.outside index (Or.inr (by omega))]
      exact later index (by omega)
    · left
      apply growing_of_read counted bounded readSome stepped some (by omega) _ (by omega)
      · exact fun index above => later index (by omega)
      · rw [tail, fresh.lookaheadConf]
        decide

theorem growing_body (growing : Growing look) (ordered : look.pfQHead ≤ look.pfQTail) :
    Ends (fun failure => failure = .ghrVictim) (look.body pt page) (fun result =>
      result.2 = true → Growing result.1 ∨ Ending pt result.1) := by
  have room := growing.room
  have near := growing.near
  by_cases patterns : (pt.cells (patternIndex look.currSig)).cSig = 0
  · refine Ends.mono (body_none pt page look patterns ordered (fun full => by omega) rfl) ?_
    rintro result ⟨read, readNone, stepped, same⟩ goesOn
    have readHead := readNone.pfQHead
    have readTail := readNone.pfQTail
    right
    apply ending_of_read stepped goesOn (by omega)
    · intro index above
      rw [readNone.confidence]
      split
      · decide
      · exact growing.late (by omega)
    · left
      rw [same]
      exact patterns
  · have few := added_le pt look
    have total : ((List.finRange ptWay).map (look.confOf pt)).sum ≤ decayed look.lookaheadConf :=
      sum_confOf counted growing.bounded
    have fits : look.pfQTail + look.added pt + 1 ≤ 33 := by
      rcases Nat.eq_zero_or_pos (look.added pt) with none | some
      · omega
      · have grows := growth_step growing.bounded.conf some (Nat.le_refl pfThreshold) (by omega)
        omega
    refine Ends.mono (body_some pt page look patterns ordered (fun full => by omega) rfl) ?_
    rintro result ⟨read, readSome, stepped, same⟩ goesOn
    have readHead := readSome.pfQHead
    have readTail := readSome.pfQTail
    rcases Nat.eq_zero_or_pos (look.added pt) with none | some
    · right
      apply ending_of_read stepped goesOn (by omega) _
        (barren_of_quiet readSome stepped none (same none))
      intro index above
      rw [readSome.outside index (by omega)]
      exact growing.late (by omega)
    · left
      apply growing_of_read counted growing.bounded readSome stepped some ordered room
      · exact growing.waiting
      · exact fun index above => growing.beyond index (by omega)

omit counted in
theorem ending_body (ending : Ending pt look) (ordered : look.pfQHead ≤ look.pfQTail) :
    Ends (fun failure => failure = .ghrVictim) (look.body pt page) (fun result =>
      result.2 = false) := by
  have room := ending.room
  by_cases patterns : (pt.cells (patternIndex look.currSig)).cSig = 0
  · refine Ends.mono (body_none pt page look patterns ordered (fun full => by omega) rfl) ?_
    rintro result ⟨read, readNone, stepped, _same⟩
    apply stops_of_quiet stepped
    intro index above
    rw [readNone.pfQHead] at above
    rw [readNone.confidence]
    split
    · decide
    · exact ending.quiet index above
  · have none : look.added pt = 0 := ending.barren.resolve_left patterns
    refine Ends.mono (body_some pt page look patterns ordered (fun full => by omega) rfl) ?_
    rintro result ⟨read, readSome, stepped, _same⟩
    apply stops_of_quiet stepped
    intro index above
    rw [readSome.pfQHead] at above
    rw [readSome.outside index (by omega)]
    exact ending.quiet index above

theorem lookahead_inRoom (fresh : Fresh look) (accurate : look.ghr.globalAccuracy ≤ 100) :
    Ends (fun failure => failure = .ghrVictim) (look.lookahead pt page) (fun _ => True) := by
  have head := fresh.pfQHead
  apply lookahead_ends pt page (InRoom pt) (fun _ => True)
  · rintro state (⟨stateFresh, stateAccurate⟩ | growing | ending) placed
    · apply (fresh_body page large counted stateFresh stateAccurate).mono
      rintro ⟨next, goesOn⟩ follows
      cases goesOn with
      | false => trivial
      | true => exact Or.inr (follows rfl)
    · apply (growing_body page large counted growing placed.ordered).mono
      rintro ⟨next, goesOn⟩ follows
      cases goesOn with
      | false => trivial
      | true => exact Or.inr (follows rfl)
    · apply (ending_body page large ending placed.ordered).mono
      rintro ⟨next, goesOn⟩ stops
      cases stops
      trivial
  · exact Or.inl ⟨fresh, accurate⟩
  · exact ⟨by omega, by omega⟩

end Lookahead

/-! ### Runs -/

namespace Run

/-- No access of the run starts with more useful prefetches than a percentage allows. -/
def Accurate (config : SppConfig) (state : Run) : List Event → Prop
  | [] => True
  | .operate addr :: rest =>
      Prefetcher.accuracy state.spp.ghr ≤ 100 ∧
        ∀ next, state.step config (.operate addr) = .ok next → Accurate config next rest
  | .fill evictedAddr :: rest =>
      ∀ next, state.step config (.fill evictedAddr) = .ok next → Accurate config next rest

theorem startLookahead_fresh (config : SppConfig) (filter : PrefetchFilter) (ghr : GlobalRegister)
    (addr : Address) (currSig : Nat) :
    (Prefetcher.startLookahead config filter ghr addr currSig).Fresh where
  pfQHead := rfl
  pfQTail := rfl
  lookaheadConf := rfl
  depth := rfl
  first := by
    unfold Queues.confidence
    rw [dif_pos config.mshrPos]
    exact CArray.cells_assign_self _ _ _
  others := by
    intro index positive
    unfold Queues.confidence
    split
    · exact CArray.cells_assign_other _ (fun same => positive.ne' (congrArg Fin.val same)) _
    · rfl

theorem operate_inRoom {config : SppConfig} (large : 34 ≤ config.mshrSize) {state : Run}
    (sound : state.spp.Sound) (addr : Address)
    (accurate : Prefetcher.accuracy state.spp.ghr ≤ 100) :
    Ends (fun failure => failure = .ghrVictim) (state.step config (.operate addr))
      (fun next => next.spp.Sound) := by
  unfold step
  refine (Prefetcher.cacheOperate_ends sound addr (fun _ => True) ?_).bind ?_
  · rintro pt look ⟨counted, currSig, rfl⟩
    apply Lookahead.lookahead_inRoom _ large counted (startLookahead_fresh config _ _ addr currSig)
    exact (check_globalAccuracy config state.spp.filter _ addr .l2cDemand).trans_le accurate
  · rintro ⟨spp, prefetched⟩ ⟨sppSound, _look⟩
    exact sppSound

theorem accurate_ends {config : SppConfig} (large : 34 ≤ config.mshrSize) (events : List Event) :
    ∀ state : Run, state.spp.Sound → Accurate config state events →
      Ends (fun failure => failure = .ghrVictim) (state.run config events) (fun _ => True) := by
  induction events with
  | nil =>
      intro state _sound _accurate
      trivial
  | cons event rest ih =>
      intro state sound accurate
      unfold run
      rw [List.foldlM_cons]
      cases event with
      | operate addr =>
          have operated := operate_inRoom large sound addr accurate.1
          cases ran : state.step config (.operate addr) with
          | error failure => exact operated.of_error ran
          | ok next => exact ih next (operated.of_ok ran) (accurate.2 next ran)
      | fill evictedAddr =>
          exact ih _ ⟨sound.ranking, sound.counted⟩ (accurate _ rfl)

/-- With queues of 34 entries and accesses that start with an accuracy of at most 100, no subscript
of a queue is out of bounds, and every lookahead ends. -/
theorem run_queues (config : SppConfig) (large : 34 ≤ config.mshrSize) (events : List Event)
    (accurate : Accurate config initial events) :
    Ends (fun failure => failure ≠ .queueOutOfBounds ∧ failure ≠ .unfinished)
      (initial.run config events) (fun _ => True) := by
  apply (accurate_ends large events initial Prefetcher.initial_sound accurate).allow
  rintro failure rfl
  exact ⟨by decide, by decide⟩

def usual (mshrSize : Nat) (mshrPos : 0 < mshrSize) : SppConfig := ⟨6, 12, mshrSize, mshrPos⟩

instance decidableAccurate (config : SppConfig) :
    ∀ (events : List Event) (state : Run), Decidable (Accurate config state events)
  | [], _ => isTrue trivial
  | .operate addr :: rest, state =>
      have := decidableAccurate config rest
      inferInstanceAs (Decidable (Prefetcher.accuracy state.spp.ghr ≤ 100 ∧
        ∀ next, state.step config (.operate addr) = .ok next → Accurate config next rest))
  | .fill evictedAddr :: rest, state =>
      have := decidableAccurate config rest
      inferInstanceAs (Decidable
        (∀ next, state.step config (.fill evictedAddr) = .ok next → Accurate config next rest))

/-- Accesses to the blocks of one page in their order, one of them twice. All that is prefetched is
used, and the counters of the last signature are 15 and 14. -/
def strideAccesses : List Event :=
  [44, 45, 46, 47, 48, 49, 49, 50, 51, 52, 53, 54, 55, 56, 57, 58, 59, 60, 61, 62, 63].map
    (fun block => .operate (BitVec.ofNat 64 (0x1000 + block * 64)))

theorem run_queues_stride :
    Ends (fun failure => failure ≠ .queueOutOfBounds ∧ failure ≠ .unfinished)
      (initial.run (usual 34 (by decide)) (strideAccesses ++ [.operate 0x2000]))
      (fun _ => True) := by
  have large : 34 ≤ (usual 34 (by decide)).mshrSize := by decide
  have accurate : Accurate (usual 34 (by decide)) initial
      (strideAccesses ++ [.operate 0x2000]) := by
    decide +kernel
  exact run_queues (usual 34 (by decide)) large _ accurate

/-- With one entry fewer, the first access to the next page finds no room. -/
theorem stride_outOfBounds :
    initial.run (usual 33 (by decide)) (strideAccesses ++ [.operate 0x2000]) =
      .error .queueOutOfBounds := by
  apply failed_eq
  decide +kernel

end Run

end ChampSim.Spp

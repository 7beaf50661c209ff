/-
The counters behind the accuracy of the signature path prefetcher. A prefetch is
issued, waits in the filter, and is useful when it is accessed; both counters
are halved together, but the prefetches that wait are not.
-/

import ChampSim.Spp.Depth
import ChampSim.Spp.Repeats

set_option autoImplicit false

namespace ChampSim.Spp

open Outcome

variable {config : SppConfig}

/-! ### The ledger -/

def waits (entry : FilterEntry) : Nat := if entry.valid = true ∧ entry.useful = false then 1 else 0

def outstanding (filter : PrefetchFilter) : Nat := ∑ index, waits (filter.cells index)

def fills (prefetched : List Prefetch) : Nat :=
  prefetched.countP (fun prefetch => prefetch.fillThisLevel)

theorem waits_le (entry : FilterEntry) : waits entry ≤ 1 := by
  unfold waits
  split
  · exact Nat.le_refl 1
  · exact Nat.zero_le 1

theorem outstanding_le (filter : PrefetchFilter) : outstanding filter ≤ filterSet := by
  have most := Finset.sum_le_card_nsmul Finset.univ (fun index => waits (filter.cells index)) 1
    (fun index _member => waits_le (filter.cells index))
  rw [Finset.card_univ, Fintype.card_fin, smul_eq_mul, Nat.mul_one] at most
  exact most

theorem outstanding_assign (filter : PrefetchFilter) (index : Fin filterSet) (entry : FilterEntry) :
    outstanding (filter.assign index entry) + waits (filter.cells index) =
      outstanding filter + waits entry :=
  CArray.sum_assign waits filter index entry

/-- What the counters say after so many prefetches into this level. -/
structure Ledger (filter : PrefetchFilter) (ghr : GlobalRegister) (issued : Nat) : Prop where
  bounded : ghr.pfIssued ≤ globalCounterMax
  slack : ghr.pfUseful + outstanding filter ≤ ghr.pfIssued + globalCounterMax
  unhalved : issued ≤ globalCounterMax →
    ghr.pfIssued = issued ∧ ghr.pfUseful + outstanding filter ≤ ghr.pfIssued

namespace Ledger

variable {filter : PrefetchFilter} {ghr : GlobalRegister} {issued : Nat}

/-- Only the counters and the prefetches that wait matter, and fewer of them do no harm. -/
theorem mono (ledger : Ledger filter ghr issued) {other : PrefetchFilter} {register : GlobalRegister}
    (sameIssued : register.pfIssued = ghr.pfIssued)
    (fewer : register.pfUseful + outstanding other ≤ ghr.pfUseful + outstanding filter) :
    Ledger other register issued where
  bounded := sameIssued ▸ ledger.bounded
  slack := by
    rw [sameIssued]
    exact fewer.trans ledger.slack
  unhalved := by
    intro few
    obtain ⟨same, within⟩ := ledger.unhalved few
    exact ⟨sameIssued.trans same, by rw [sameIssued]; exact fewer.trans within⟩

theorem demanded (ledger : Ledger filter ghr issued) (index : Fin filterSet) (tag : Nat) :
    Ledger (demand filter ghr index tag).1 (demand filter ghr index tag).2 issued := by
  unfold demand
  simp only
  generalize marked : { filter.cells index with useful := true } = entry
  have used : waits entry = 0 := by
    rw [← marked]
    exact if_neg (fun both => Bool.noConfusion both.2)
  have changed := outstanding_assign filter index entry
  rw [used] at changed
  split
  · rename_i unused
    split
    · rename_i valid
      have waited : waits (filter.cells index) = 1 := if_pos ⟨valid, unused.2⟩
      apply ledger.mono
      · rfl
      · simp only
        omega
    · apply ledger.mono
      · rfl
      · simp only
        omega
  · exact ledger

theorem evicted (ledger : Ledger filter ghr issued) (index : Fin filterSet) :
    Ledger (evict filter ghr index).1 (evict filter ghr index).2 issued := by
  have changed := outstanding_assign filter index {}
  have empty : waits {} = 0 := rfl
  rw [empty] at changed
  unfold evict
  simp only
  split
  · apply ledger.mono
    · rfl
    · simp only
      omega
  · apply ledger.mono
    · rfl
    · omega

/-- An entry of the filter is overwritten by a prefetch that is issued. -/
theorem issue (ledger : Ledger filter ghr issued) (index : Fin filterSet) (entry : FilterEntry) :
    Ledger (filter.assign index entry) ghr.issue (issued + 1) := by
  have changed := outstanding_assign filter index entry
  have one := waits_le entry
  have most := outstanding_le (filter.assign index entry)
  have bounded := ledger.bounded
  have slack := ledger.slack
  have unhalved := ledger.unhalved
  have cap : globalCounterMax = 1023 := rfl
  have size : filterSet = 1024 := rfl
  unfold GlobalRegister.issue
  split
  · refine ⟨?_, ?_, ?_⟩
    · simp only
      omega
    · simp only
      omega
    · intro few
      have same := (unhalved (by omega)).1
      omega
  · refine ⟨?_, ?_, ?_⟩
    · simp only
      omega
    · simp only
      omega
    · intro few
      have exactly := unhalved (by omega)
      simp only
      omega

end Ledger

theorem fills_concat (prefetched : List Prefetch) (last : Prefetch) :
    fills (prefetched ++ [last]) = fills prefetched + if last.fillThisLevel then 1 else 0 := by
  unfold fills
  rw [List.countP_append, List.countP_singleton]

/-- The ledger of the lookahead, after what was issued before. -/
def Lookahead.Kept (before : Nat) (look : Lookahead config) : Prop :=
  Ledger look.filter look.ghr (before + fills look.prefetched)

namespace Lookahead

variable {before : Nat} {look : Lookahead config}

theorem filtered_kept (kept : Kept before look) (pfAddr : Address) (confidence : Nat) :
    Kept before (look.filtered pfAddr confidence) := by
  by_cases high : fillThreshold ≤ confidence
  · have asked : prefetchRequest confidence = .sppL2cPrefetch := if_pos high
    unfold filtered
    rw [asked]
    unfold check
    simp only
    by_cases held : (look.filter.cells (quotient config pfAddr)).holds (remainder config pfAddr)
    · rw [if_pos held]
      exact kept
    · rw [if_neg held]
      unfold Kept
      simp only [if_true, if_pos high, fills_concat, decide_eq_true high]
      exact kept.issue _ _
  · have asked : prefetchRequest confidence = .sppLlcPrefetch := if_neg high
    unfold filtered
    rw [asked]
    unfold check
    simp only
    split
    · unfold Kept
      simp only [fills_concat, decide_eq_false high]
      exact kept
    · exact kept

theorem request_kept (page : BitVec 64) (kept : Kept before look) (confidence : Nat) (delta : Int) :
    Ends (fun _ => True) (look.request page confidence delta) (Kept before) := by
  unfold request
  simp only
  split
  · exact filtered_kept kept _ confidence
  · apply (look.ghr.updateEntry_ends _ _ _ _ trivial).bind
    rintro ghr ⟨entries, rfl⟩
    exact kept.mono rfl (Nat.le_refl _)

theorem issueAll_kept (page : BitVec 64) (kept : Kept before look) :
    Ends (fun _ => True) (look.issueAll page) (fun result => Kept before result.1) := by
  apply foldlM_ends (issueAt page) (fun state => Kept before state.1)
  · rintro ⟨state, doLookahead⟩ index _member stateKept
    unfold issueAt
    apply (ends_anything (state.queues.read index)).bind
    rintro ⟨confidence, delta⟩ _
    simp only
    split
    · apply (request_kept page stateKept confidence delta).bind
      intro next nextKept
      exact nextKept
    · exact stateKept
  · exact kept

theorem readPattern_kept (pt : PatternTable) (kept : Kept before look) :
    Ends (fun _ => True) (look.readPattern pt) (fun result => Kept before result.1) := by
  unfold Kept at kept
  by_cases patterns : (pt.cells (patternIndex look.currSig)).cSig = 0
  · apply (readPattern_none pt look patterns (fun _ => trivial)).mono
    rintro result ⟨readNone, _lost⟩
    unfold Kept
    rw [readNone.filter, readNone.ghr, readNone.prefetched]
    exact kept
  · apply (readPattern_some pt look patterns (fun _ => trivial)).mono
    rintro result ⟨readSome, _lost⟩
    unfold Kept
    rw [readSome.filter, readSome.ghr, readSome.prefetched]
    exact kept

theorem body_kept (pt : PatternTable) (page : BitVec 64) (kept : Kept before look) :
    Ends (fun _ => True) (look.body pt page) (fun result => Kept before result.1) := by
  unfold body
  apply (readPattern_kept pt kept).bind
  rintro ⟨read, lookaheadWay⟩ readKept
  apply (issueAll_kept page readKept).bind
  rintro ⟨issued, goesOn⟩ issuedKept
  cases lookaheadWay with
  | none => exact issuedKept
  | some way => exact issuedKept

/-! ### The confidence of a lookahead -/

variable {pt : PatternTable}

/-- Either the accuracy bounds the next confidence, or no entry is added any more. -/
def Steady (pt : PatternTable) (look : Lookahead config) : Prop := Bounded look ∨ Barren pt look

theorem body_falls (page : BitVec 64) (counted : ∀ index, (pt.cells index).Counted)
    (steady : Steady pt look) (placed : Placed look) :
    Ends (fun _ => True) (look.body pt page) (fun result =>
      result.1.lookaheadConf ≤ look.lookaheadConf ∧ Steady pt result.1) := by
  by_cases patterns : (pt.cells (patternIndex look.currSig)).cSig = 0
  · apply (body_none pt page look patterns placed.ordered (fun _ => trivial) trivial).mono
    rintro result ⟨read, readNone, stepped, same⟩
    have conf : result.1.lookaheadConf = look.lookaheadConf :=
      stepped.lookaheadConf.trans readNone.lookaheadConf
    refine ⟨conf.le, Or.inr (Or.inl ?_)⟩
    rw [same]
    exact patterns
  · apply (body_some pt page look patterns placed.ordered (fun _ => trivial) trivial).mono
    rintro result ⟨read, readSome, stepped, same⟩
    rcases Nat.eq_zero_or_pos (look.added pt) with none | some
    · have conf : result.1.lookaheadConf = 0 :=
        stepped.lookaheadConf.trans (readSome.quiet none).1
      exact ⟨conf.trans_le (Nat.zero_le _),
        Or.inr (barren_of_quiet readSome stepped none (same none))⟩
    · have bounded : Bounded look := by
        rcases steady with bounded | unused | none
        · exact bounded
        · exact absurd unused patterns
        · omega
      obtain ⟨_confident, deeper, shared⟩ := readSome.some some
      have total := sum_confOf counted bounded
      have part : pfThreshold * 1 ≤ pfThreshold * look.added pt := Nat.mul_le_mul_left _ some
      have conf : result.1.lookaheadConf = read.lookaheadConf := stepped.lookaheadConf
      have depth : result.1.depth = read.depth := stepped.depth
      have falls : result.1.lookaheadConf ≤ look.lookaheadConf := by omega
      refine ⟨falls, Or.inl ⟨?_, falls.trans bounded.conf, fun first => by omega⟩⟩
      rw [stepped.globalAccuracy, readSome.ghr]
      exact bounded.accurate

end Lookahead

namespace Prefetcher

/-- The lookahead of an access, on the trained patterns, passes through these variables. -/
def Looks (config : SppConfig) (spp : Prefetcher) (addr : Address) (pt : PatternTable)
    (look : Lookahead config) : Prop :=
  let ghr := { spp.ghr with globalAccuracy := accuracy spp.ghr }
  let demanded := check config spp.filter ghr addr .l2cDemand
  ∃ read, spp.st.readAndUpdateSig config ghr addr = .ok read ∧ train spp.pt read = .ok pt ∧
    Loops.Visits (Lookahead.pass pt (config.pageNumber addr))
      (startLookahead config demanded.2.1 demanded.2.2 addr read.currSig) look

theorem accuracy_le {ghr : GlobalRegister} (within : ghr.pfUseful ≤ ghr.pfIssued) :
    accuracy ghr ≤ 100 := by
  unfold accuracy
  split
  · rename_i issued
    calc mul32 100 ghr.pfUseful / ghr.pfIssued
        ≤ 100 * ghr.pfUseful / ghr.pfIssued := Nat.div_le_div_right (Nat.mod_le _ _)
      _ ≤ 100 * ghr.pfIssued / ghr.pfIssued :=
          Nat.div_le_div_right (Nat.mul_le_mul_left 100 within)
      _ = 100 := Nat.mul_div_cancel 100 (Nat.pos_of_ne_zero issued)
  · exact Nat.zero_le 100

theorem looks_steady {spp : Prefetcher} (sound : Sound spp) {addr : Address} {pt : PatternTable}
    {look : Lookahead config} (accurate : accuracy spp.ghr ≤ 100)
    (looks : spp.Looks config addr pt look) :
    (∀ index, (pt.cells index).Counted) ∧ look.Steady pt ∧ look.Placed := by
  obtain ⟨read, ranRead, ranTrain, visits⟩ := looks
  have moved := ((SignatureTable.readAndUpdateSig_ends sound.ranking _ addr).of_ok ranRead).2
  have counted := (train_ends sound.counted moved).of_ok ranTrain
  refine ⟨counted, visits.keeps (fun state => state.Steady pt ∧ state.Placed) ⟨?_, ?_⟩ ?_⟩
  · left
    refine ⟨?_, Nat.le_refl 100, fun _first => rfl⟩
    exact (check_globalAccuracy config spp.filter _ addr .l2cDemand).trans_le accurate
  · exact ⟨Nat.le_refl 0, Nat.zero_le _⟩
  · rintro before next ⟨steady, placed⟩ passed
    unfold Lookahead.pass at passed
    split at passed
    · cases passed
    · rename_i continued ran
      cases passed
      exact ⟨((Lookahead.body_falls _ counted steady placed).of_ok ran).2,
        ((Lookahead.body_progress pt _ before placed).of_ok ran).1⟩
    · cases passed

end Prefetcher

/-! ### Runs -/

namespace Run

structure Balanced (state : Run) : Prop where
  sound : state.spp.Sound
  ledger : Ledger state.spp.filter state.spp.ghr (fills state.prefetched)

theorem initial_balanced : Balanced initial where
  sound := Prefetcher.initial_sound
  ledger := by
    have nothing : outstanding initial.spp.filter = 0 :=
      Finset.sum_eq_zero (fun _index _member => rfl)
    have useful : initial.spp.ghr.pfUseful = 0 := rfl
    exact ⟨Nat.zero_le _, by omega, fun _few => ⟨rfl, by omega⟩⟩

theorem operate_balanced {state : Run} (balanced : Balanced state) (addr : Address) :
    Ends (fun _ => True) (state.step config (.operate addr)) Balanced := by
  unfold step
  refine (Prefetcher.cacheOperate_ends balanced.sound addr
    (Lookahead.Kept (fills state.prefetched)) ?_).bind ?_
  · rintro pt look ⟨_counted, currSig, rfl⟩
    apply Lookahead.lookahead_ends pt _ (Lookahead.Kept (fills state.prefetched))
    · intro look kept _placed
      apply (Lookahead.body_kept pt _ kept).mono
      rintro ⟨next, goesOn⟩ nextKept
      cases goesOn <;> exact nextKept
    · have begins : Ledger state.spp.filter
          { state.spp.ghr with globalAccuracy := Prefetcher.accuracy state.spp.ghr }
          (fills state.prefetched) := balanced.ledger.mono rfl (Nat.le_refl _)
      exact begins.demanded _ _
    · exact ⟨Nat.le_refl 0, Nat.zero_le _⟩
  · rintro ⟨spp, prefetched⟩ ⟨sppSound, look, kept, sameFilter, sameGhr, samePrefetched⟩
    refine ⟨sppSound, ?_⟩
    have total : fills (state.prefetched ++ prefetched) =
        fills state.prefetched + fills look.prefetched := by
      change prefetched = look.prefetched at samePrefetched
      rw [samePrefetched]
      exact List.countP_append
    change spp.filter = look.filter at sameFilter
    change spp.ghr = look.ghr at sameGhr
    change Ledger spp.filter spp.ghr (fills (state.prefetched ++ prefetched))
    rw [sameFilter, sameGhr, total]
    exact kept

theorem step_balanced {state : Run} (balanced : Balanced state) (event : Event) :
    Ends (fun _ => True) (state.step config event) Balanced := by
  cases event with
  | operate addr => exact operate_balanced balanced addr
  | fill evictedAddr =>
      exact ⟨⟨balanced.sound.ranking, balanced.sound.counted⟩, balanced.ledger.evicted _⟩

theorem run_balanced (config : SppConfig) (events : List Event) :
    Ends (fun _ => True) (initial.run config events) Balanced := by
  apply foldlM_ends (step config) Balanced events
  · intro state event _member holds
    exact step_balanced holds event
  · exact initial_balanced

/-- In every run the useful prefetches are at most 1023 more than those issued, and none more until
the counters are halved. An accuracy of at most 100 is a percentage, with which no pass of a
lookahead raises the confidence. -/
theorem run_counters (config : SppConfig) (events : List Event) :
    Ends (fun _ => True) (initial.run config events) (fun state =>
      state.spp.ghr.pfIssued ≤ globalCounterMax ∧
      state.spp.ghr.pfUseful ≤ state.spp.ghr.pfIssued + globalCounterMax ∧
      (fills state.prefetched ≤ globalCounterMax →
        state.spp.ghr.pfUseful ≤ state.spp.ghr.pfIssued) ∧
      (state.spp.ghr.pfUseful ≤ state.spp.ghr.pfIssued →
        Prefetcher.accuracy state.spp.ghr ≤ 100) ∧
      (Prefetcher.accuracy state.spp.ghr ≤ 100 → ∀ addr pt look,
        state.spp.Looks config addr pt look → ∀ next goesOn,
        look.body pt (config.pageNumber addr) = .ok (next, goesOn) →
        next.lookaheadConf ≤ look.lookaheadConf)) := by
  apply (run_balanced config events).mono
  rintro state ⟨sound, ledger⟩
  refine ⟨ledger.bounded, (Nat.le_add_right _ _).trans ledger.slack, ?_, Prefetcher.accuracy_le, ?_⟩
  · intro few
    exact (Nat.le_add_right _ _).trans (ledger.unhalved few).2
  · intro accurate addr pt look looks next goesOn ran
    obtain ⟨counted, steady, placed⟩ := Prefetcher.looks_steady sound accurate looks
    exact ((Lookahead.body_falls _ counted steady placed).of_ok ran).1

def pageStart (page : Nat) : Address := BitVec.ofNat 64 (page * 4096)

/-- Blocks that wait, each with an entry of the filter of its own. -/
def waitingBlocks : List Address := [1, 2, 3, 4, 5, 6, 7, 8, 10, 11, 12].map pageStart

def allBlocks : List Address := pageStart 283 :: pageStart 0 :: waitingBlocks

def contestAccesses : List Event := contest (pageStart 283) (pageStart 0)

/-- Accesses that train the signature 0, two blocks that are used, and eleven that wait. -/
def startAccesses : List Event :=
  [40, 12, 18, 19].map (fun block => .operate (BitVec.ofNat 64 (9 * 4096 + block * 64))) ++
    contestAccesses ++ waitingBlocks.map Event.operate

/-- The eleven still wait when the counters are halved, and then are used. -/
def halvingAccesses : List Event :=
  (List.replicate 505 contestAccesses).flatten ++
    ([.operate (pageStart 283), .operate (pageStart 283)] ++ waitingBlocks.map Event.operate)

structure Apart (config : SppConfig) : Prop where
  together : quotient config (pageStart 283) = quotient config (pageStart 0)
  differ : remainder config (pageStart 283) ≠ remainder config (pageStart 0)
  others : waitingBlocks.all (fun addr =>
    decide (quotient config addr ≠ quotient config (pageStart 0))) = true
  nodup : (waitingBlocks.map (quotient config)).Nodup

def started (config : SppConfig) (spp : Prefetcher) : Bool :=
  decide (spp.pt.cells (patternIndex 0)).Silent &&
    allBlocks.all (fun addr => decide (Lookahead.prefetchAddr config addr 0 = addr)) &&
    allBlocks.all (fun addr => decide (spp.st.Resident config addr)) &&
    waitingBlocks.all (fun addr => decide
      (spp.filter.cells (quotient config addr) = ⟨remainder config addr, true, false⟩)) &&
    decide (spp.filter.cells (quotient config (pageStart 0)) =
      ⟨remainder config (pageStart 0), true, true⟩) &&
    decide ((spp.ghr.pfIssued, spp.ghr.pfUseful) = (13, 2))

/-- From a state that passes the test, more prefetches are useful than issued. -/
theorem run_halving (large : 1 < config.mshrSize) (apart : Apart config) {state : Run}
    (sound : state.spp.Sound) (test : started config state.spp = true) :
    Ends (fun _ => False) (state.run config halvingAccesses) (fun next =>
      next.spp.ghr.pfIssued = 512 ∧ next.spp.ghr.pfUseful = 518) := by
  unfold started at test
  simp only [Bool.and_eq_true, List.all_eq_true, decide_eq_true_eq] at test
  obtain ⟨⟨⟨⟨⟨silent, own⟩, resident⟩, waiting⟩, taken⟩, counts⟩ := test
  have others := apart.others
  simp only [List.all_eq_true, decide_eq_true_eq] at others
  have begins : state.spp.Repeating config allBlocks
      (state.spp.filter.assign (quotient config (pageStart 0))
        ⟨remainder config (pageStart 0), true, true⟩) (13, 2) := by
    refine ⟨own, sound.ranking, silent, resident, ?_, counts⟩
    rw [← taken, CArray.assign_self]
  have firstMember : pageStart 283 ∈ allBlocks := List.mem_cons_self
  have secondMember : pageStart 0 ∈ allBlocks := List.mem_cons_of_mem _ List.mem_cons_self
  have rounds := run_contests large firstMember secondMember apart.together apart.differ 505
    (by decide) begins
  unfold halvingAccesses
  rw [run_append]
  apply rounds.bind
  intro full fullRepeating
  rw [run_append]
  refine (run_twice large fullRepeating firstMember ?_).bind ?_
  · rw [apart.together, CArray.cells_assign_self]
    exact apart.differ.symm
  · intro halved halvedRepeating
    refine (run_waiting large waitingBlocks halvedRepeating ?_ apart.nodup).mono ?_
    · intro addr member
      refine ⟨List.mem_cons_of_mem _ (List.mem_cons_of_mem _ member), ?_⟩
      rw [apart.together, CArray.assign_assign, CArray.cells_assign_other _ (others addr member)]
      exact waiting addr member
    · rintro last ⟨_filter, lastRepeating⟩
      have final := lastRepeating.counts
      exact ⟨congrArg Prod.fst final, congrArg Prod.snd final⟩

theorem run_started (large : 1 < config.mshrSize) (apart : Apart config) {state : Run}
    (ran : initial.run config startAccesses = .ok state)
    (test : started config state.spp = true) :
    ∃ last, initial.run config (startAccesses ++ halvingAccesses) = .ok last ∧
      last.spp.ghr.pfIssued < last.spp.ghr.pfUseful ∧
      100 < Prefetcher.accuracy last.spp.ghr := by
  have sound := ((run_balanced config startAccesses).of_ok ran).sound
  obtain ⟨last, halved, issued, useful⟩ := (run_halving large apart sound test).exists_ok
  refine ⟨last, ?_, by omega, ?_⟩
  · rw [run_append, ran]
    exact halved
  · unfold Prefetcher.accuracy
    rw [issued, useful]
    decide

theorem start_succeeds :
    succeeds (initial.run (usual 32 (by decide)) startAccesses)
      (fun state => started (usual 32 (by decide)) state.spp) = true := by
  decide +kernel

theorem usual_apart : Apart (usual 32 (by decide)) where
  together := by decide +kernel
  differ := by decide +kernel
  others := by decide +kernel
  nodup := by decide +kernel

/-- Of more than 1023 prefetches into this level, 518 count as useful and 512 as issued. -/
theorem useful_exceed_issued :
    ∃ state, initial.run (usual 32 (by decide)) (startAccesses ++ halvingAccesses) = .ok state ∧
      state.spp.ghr.pfIssued < state.spp.ghr.pfUseful ∧
      100 < Prefetcher.accuracy state.spp.ghr := by
  obtain ⟨middle, ran, test⟩ := of_succeeds start_succeeds
  have large : 1 < (usual 32 (by decide)).mshrSize := by decide
  exact run_started large usual_apart ran test

end Run

end ChampSim.Spp

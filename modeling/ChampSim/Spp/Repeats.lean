/-
Repeated accesses: to the block of a page that was accessed there last. One of
them trains nothing, and its lookahead, from the signature 0, asks for no block
but its own.
-/

import ChampSim.Spp.Invariants

set_option autoImplicit false

namespace ChampSim.Spp

open Outcome
open Ranks (IsRanking)

variable {config : SppConfig}

/-! ### The signature -/

namespace SignatureTable

/-- The page of the address is in the table, with the block of the address. -/
def Resident (config : SppConfig) (st : SignatureTable) (addr : Address) : Prop :=
  (st.hitWay (config.partialPage addr)).map (fun way => st.lastOffset.cells way) =
    some (config.pageOffset addr)

instance (config : SppConfig) (st : SignatureTable) (addr : Address) :
    Decidable (st.Resident config addr) :=
  inferInstanceAs (Decidable (_ = _))

theorem hit_same {st : SignatureTable} {way : Fin stWay} {pageOffset : Nat}
    (same : st.lastOffset.cells way = pageOffset) :
    st.hit way pageOffset = { st := st, lastSig := 0, currSig := 0, delta := 0 } := by
  unfold hit
  simp only
  rw [same, Int.sub_self, if_neg (not_not_intro rfl)]

theorem read_resident {st : SignatureTable} (ranking : IsRanking st.lru.cells)
    (ghr : GlobalRegister) {addr : Address} (resident : st.Resident config addr) :
    ∃ lru : CArray stWay Nat, IsRanking lru.cells ∧
      st.readAndUpdateSig config ghr addr =
        .ok { st := { st with lru := lru }, lastSig := 0, currSig := 0, delta := 0 } := by
  obtain ⟨way, found, same⟩ := Option.map_eq_some_iff.mp resident
  refine ⟨⟨Ranks.promote st.lru.cells way⟩, ranking.promote way, ?_⟩
  unfold readAndUpdateSig
  rw [found]
  simp only
  rw [hit_same same]
  simp only
  rw [promote_eq ranking]
  rfl

end SignatureTable

/-! ### The lookahead -/

/-- A confident prefetch, which the filter lets pass if it does not hold the block. -/
def ask (config : SppConfig) (filter : PrefetchFilter) (ghr : GlobalRegister) (addr : Address) :
    PrefetchFilter × GlobalRegister :=
  if (filter.cells (quotient config addr)).holds (remainder config addr) then (filter, ghr)
  else
    (filter.assign (quotient config addr)
      { remainderTag := remainder config addr, valid := true, useful := false }, ghr.issue)

def PatternSet.Silent (set : PatternSet) : Prop :=
  set.cSig ≠ 0 ∧ ∀ way, set.localConf way < pfThreshold

instance (set : PatternSet) : Decidable set.Silent := inferInstanceAs (Decidable (_ ∧ _))

theorem WayScan.scan_low (set : PatternSet) {conf : Fin ptWay → Nat}
    (low : ∀ way, conf way < pfThreshold) (ways : List (Fin ptWay)) (scan : WayScan config) :
    ways.foldlM (WayScan.consider set conf) scan = .ok scan := by
  induction ways with
  | nil => rfl
  | cons way rest ih =>
      rw [List.foldlM_cons]
      unfold WayScan.consider at ih ⊢
      rw [if_neg (Nat.not_le_of_lt (low way))]
      exact ih

theorem ask_held {filter : PrefetchFilter} (ghr : GlobalRegister) {addr : Address}
    (held : (filter.cells (quotient config addr)).holds (remainder config addr) = true) :
    ask config filter ghr addr = (filter, ghr) := if_pos held

theorem ask_new {filter : PrefetchFilter} (ghr : GlobalRegister) {addr : Address}
    (absent : (filter.cells (quotient config addr)).holds (remainder config addr) = false) :
    ask config filter ghr addr =
      (filter.assign (quotient config addr) ⟨remainder config addr, true, false⟩, ghr.issue) := by
  unfold ask
  rw [absent]
  exact if_neg Bool.false_ne_true

namespace Lookahead

variable {look : Lookahead config} {pt : PatternTable}

theorem readPattern_silent (silent : (pt.cells (patternIndex look.currSig)).Silent)
    (first : look.depth = 0) :
    look.readPattern pt =
      .ok ({ look with pfQTail := look.pfQTail + 1, lookaheadConf := 0 }, none) := by
  have low : ∀ way, (pt.cells (patternIndex look.currSig)).pfConf look.ghr.globalAccuracy look.depth
      look.lookaheadConf way < pfThreshold := by
    intro way
    unfold PatternSet.pfConf
    rw [if_neg (not_not_intro first)]
    exact silent.2 way
  unfold readPattern
  simp only
  rw [if_pos silent.1, WayScan.scan_low _ low]
  rfl

theorem issueAll_one (page : BitVec 64) (one : look.pfQTail = look.pfQHead + 1) :
    look.issueAll page = issueAt page (look, false) look.pfQHead := by
  unfold issueAll
  rw [one, Nat.add_sub_cancel_left]
  change issueAt page (look, false) look.pfQHead >>= pure = _
  exact bind_pure _

theorem body_silent (page : BitVec 64) (silent : (pt.cells (patternIndex look.currSig)).Silent)
    (first : look.depth = 0) (one : look.pfQTail = look.pfQHead) {next : Lookahead config × Bool}
    (issued : issueAt page ({ look with pfQTail := look.pfQTail + 1, lookaheadConf := 0 }, false)
      look.pfQHead = .ok next) : look.body pt page = .ok next := by
  unfold body
  rw [readPattern_silent silent first]
  change (issueAll page { look with pfQTail := look.pfQTail + 1, lookaheadConf := 0 } >>= _) = _
  rw [issueAll_one page (congrArg Nat.succ one), issued]
  rfl

/-- A confident prefetch and what it leaves of the variables of the lookahead. -/
theorem filtered_ask (look : Lookahead config) (pfAddr : Address) :
    ∃ prefetched, look.filtered pfAddr 100 =
      { look with
        filter := (ask config look.filter look.ghr pfAddr).1
        ghr := (ask config look.filter look.ghr pfAddr).2
        prefetched := prefetched } := by
  have asked : prefetchRequest 100 = .sppL2cPrefetch := rfl
  unfold filtered ask
  rw [asked]
  unfold check
  simp only
  split
  · exact ⟨_, rfl⟩
  · exact ⟨_, rfl⟩

theorem issueAt_own (page : BitVec 64) {confidence : Nat} {delta : Int} {index : Nat}
    (goesOn : Bool) (entry : look.queues.read index = .ok (confidence, delta))
    (confident : pfThreshold ≤ confidence)
    (own : config.pageNumber (prefetchAddr config look.baseAddr delta) = page) :
    issueAt page (look, goesOn) index =
      .ok ({ look.filtered (prefetchAddr config look.baseAddr delta) confidence with
        pfQHead := (look.filtered (prefetchAddr config look.baseAddr delta) confidence).pfQHead + 1 },
        true) := by
  unfold issueAt
  rw [entry]
  change (if pfThreshold ≤ confidence then _ else _) = _
  rw [if_pos confident]
  unfold request
  simp only
  rw [if_pos own]
  rfl

theorem issueAt_low (page : BitVec 64) {confidence : Nat} {delta : Int} {index : Nat}
    (goesOn : Bool) (entry : look.queues.read index = .ok (confidence, delta))
    (low : confidence < pfThreshold) : issueAt page (look, goesOn) index = .ok (look, goesOn) := by
  unfold issueAt
  rw [entry]
  exact if_neg (Nat.not_le_of_lt low)

theorem initial_first (config : SppConfig) : (Queues.initial config).read 0 = .ok (100, 0) := by
  unfold Queues.read
  rw [dif_pos config.mshrPos]
  exact congrArg (fun confidence => Except.ok (confidence, 0)) (CArray.cells_assign_self _ _ _)

theorem initial_second (large : 1 < config.mshrSize) :
    (Queues.initial config).read 1 = .ok (0, 0) := by
  unfold Queues.read
  rw [dif_pos large]
  apply congrArg (fun confidence => Except.ok (confidence, 0))
  exact CArray.cells_assign_other _ (fun same => Nat.one_ne_zero (congrArg Fin.val same)) _

theorem pass_goesOn {page : BitVec 64} {next : Lookahead config}
    (ran : look.body pt page = .ok (next, true)) : pass pt page look = .inl next := by
  unfold pass
  rw [ran]

theorem firstPass_silent (filter : PrefetchFilter) (ghr : GlobalRegister) {addr : Address}
    (own : prefetchAddr config addr 0 = addr) (silent : (pt.cells (patternIndex 0)).Silent) :
    ∃ second : Lookahead config,
      pass pt (config.pageNumber addr) (Prefetcher.startLookahead config filter ghr addr 0) =
        .inl second ∧
      second.queues = Queues.initial config ∧ second.pfQHead = 1 ∧ second.pfQTail = 1 ∧
      second.depth = 0 ∧ second.currSig = 0 ∧
      second.filter = (ask config filter ghr addr).1 ∧
      second.ghr = (ask config filter ghr addr).2 := by
  let start := Prefetcher.startLookahead config filter ghr addr 0
  let first : Lookahead config := { start with pfQTail := start.pfQTail + 1, lookaheadConf := 0 }
  obtain ⟨prefetched, asked⟩ := filtered_ask first addr
  have entry : first.queues.read start.pfQHead = .ok (100, 0) := initial_first config
  have block : prefetchAddr config first.baseAddr 0 = addr := own
  have issued := issueAt_own (config.pageNumber addr) false entry (by decide) (by rw [block])
  rw [block, asked] at issued
  have patterns : (pt.cells (patternIndex start.currSig)).Silent := silent
  have ran := body_silent (config.pageNumber addr) patterns rfl rfl issued
  exact ⟨_, pass_goesOn ran, rfl, rfl, rfl, rfl, rfl, rfl, rfl⟩

theorem nextPass_silent (page : BitVec 64) (large : 1 < config.mshrSize)
    (silent : (pt.cells (patternIndex look.currSig)).Silent)
    (queues : look.queues = Queues.initial config) (head : look.pfQHead = 1)
    (tail : look.pfQTail = 1) (depth : look.depth = 0) :
    pass pt page look =
      .inr (.ok { look with pfQTail := look.pfQTail + 1, lookaheadConf := 0 }) := by
  have entry : look.queues.read look.pfQHead = .ok (0, 0) := by
    rw [queues, head]
    exact initial_second large
  have quiet : issueAt page
      ({ look with pfQTail := look.pfQTail + 1, lookaheadConf := 0 }, false) look.pfQHead =
        .ok ({ look with pfQTail := look.pfQTail + 1, lookaheadConf := 0 }, false) :=
    issueAt_low page false entry (by decide)
  unfold pass
  rw [body_silent page silent depth (tail.trans head.symm) quiet]

theorem lookahead_silent (large : 1 < config.mshrSize) (filter : PrefetchFilter)
    (ghr : GlobalRegister) {addr : Address} (own : prefetchAddr config addr 0 = addr)
    (silent : (pt.cells (patternIndex 0)).Silent) :
    ∃ look, (Prefetcher.startLookahead config filter ghr addr 0).lookahead pt
        (config.pageNumber addr) = .ok look ∧
      look.filter = (ask config filter ghr addr).1 ∧ look.ghr = (ask config filter ghr addr).2 := by
  obtain ⟨second, goesOn, queues, head, tail, depth, currSig, sameFilter, sameGhr⟩ :=
    firstPass_silent filter ghr own silent
  rw [← currSig] at silent
  have stops := nextPass_silent (config.pageNumber addr) large silent queues head tail depth
  refine ⟨{ second with pfQTail := second.pfQTail + 1, lookaheadConf := 0 }, ?_, sameFilter,
    sameGhr⟩
  unfold lookahead
  rw [Loops.run_next goesOn, Loops.run_done stops]

end Lookahead

/-! ### Repeated accesses -/

/-- The counters of issued and useful prefetches after one more is issued. -/
def counted (counts : Nat × Nat) : Nat × Nat :=
  if globalCounterMax < counts.1 + 1 then ((counts.1 + 1) / 2, counts.2 / 2)
  else (counts.1 + 1, counts.2)

theorem counted_few {counts : Nat × Nat} (few : counts.1 < globalCounterMax) :
    counted counts = (counts.1 + 1, counts.2) := if_neg (Nat.not_lt_of_le few)

namespace Prefetcher

/-- The state between repeated accesses to these addresses. -/
structure Repeating (config : SppConfig) (addrs : List Address) (filter : PrefetchFilter)
    (counts : Nat × Nat) (spp : Prefetcher) : Prop where
  own : ∀ addr ∈ addrs, Lookahead.prefetchAddr config addr 0 = addr
  ranking : IsRanking spp.st.lru.cells
  silent : (spp.pt.cells (patternIndex 0)).Silent
  resident : ∀ addr ∈ addrs, spp.st.Resident config addr
  filter : spp.filter = filter
  counts : (spp.ghr.pfIssued, spp.ghr.pfUseful) = counts

variable {addrs : List Address} {addr : Address} {filter : PrefetchFilter} {counts : Nat × Nat}
variable {spp : Prefetcher}

/-- A repeated access is its demand and the prefetch of its own block. -/
theorem repeat_ends (large : 1 < config.mshrSize)
    (repeating : Repeating config addrs filter counts spp) (member : addr ∈ addrs)
    {demanded : PrefetchFilter × GlobalRegister}
    (demands : demand filter { spp.ghr with globalAccuracy := accuracy spp.ghr }
      (quotient config addr) (remainder config addr) = demanded) :
    Ends (fun _ => False) (spp.cacheOperate config addr) (fun result =>
      Repeating config addrs (ask config demanded.1 demanded.2 addr).1
        ((ask config demanded.1 demanded.2 addr).2.pfIssued,
          (ask config demanded.1 demanded.2 addr).2.pfUseful) result.1) := by
  obtain ⟨lru, ranking, read⟩ := SignatureTable.read_resident repeating.ranking
    { spp.ghr with globalAccuracy := accuracy spp.ghr } (repeating.resident addr member)
  obtain ⟨look, looked, sameFilter, sameGhr⟩ := Lookahead.lookahead_silent large demanded.1
    demanded.2 (repeating.own addr member) repeating.silent
  unfold cacheOperate
  simp only
  rw [read]
  change Ends _ ((startLookahead config (demand spp.filter _ _ _).1 (demand spp.filter _ _ _).2 addr
    0).lookahead spp.pt (config.pageNumber addr) >>= _) _
  rw [repeating.filter, demands, looked]
  refine ⟨repeating.own, ranking, repeating.silent, repeating.resident, sameFilter, ?_⟩
  rw [← sameGhr]

theorem issue_counted (ghr : GlobalRegister) :
    (ghr.issue.pfIssued, ghr.issue.pfUseful) = counted (ghr.pfIssued, ghr.pfUseful) := by
  unfold GlobalRegister.issue counted
  split
  · rfl
  · rfl

theorem repeat_new (large : 1 < config.mshrSize)
    (repeating : Repeating config addrs filter counts spp) (member : addr ∈ addrs)
    (other : (filter.cells (quotient config addr)).remainderTag ≠ remainder config addr) :
    Ends (fun _ => False) (spp.cacheOperate config addr) (fun result =>
      Repeating config addrs
        (filter.assign (quotient config addr) ⟨remainder config addr, true, false⟩)
        (counted counts) result.1) := by
  have demands : demand filter { spp.ghr with globalAccuracy := accuracy spp.ghr }
      (quotient config addr) (remainder config addr) = (filter, _) :=
    if_neg (fun used => other used.1)
  have absent : (filter.cells (quotient config addr)).holds (remainder config addr) = false := by
    unfold FilterEntry.holds
    rw [decide_eq_false other, Bool.and_false]
  have ends := repeat_ends large repeating member demands
  rw [ask_new _ absent] at ends
  rw [← repeating.counts]
  have issues := issue_counted { spp.ghr with globalAccuracy := accuracy spp.ghr }
  apply ends.mono
  intro result next
  exact ⟨next.own, next.ranking, next.silent, next.resident, next.filter,
    next.counts.trans issues⟩

theorem repeat_used (large : 1 < config.mshrSize)
    (repeating : Repeating config addrs filter counts spp) (member : addr ∈ addrs)
    (waiting : filter.cells (quotient config addr) = ⟨remainder config addr, true, false⟩) :
    Ends (fun _ => False) (spp.cacheOperate config addr) (fun result =>
      Repeating config addrs
        (filter.assign (quotient config addr) ⟨remainder config addr, true, true⟩)
        (counts.1, counts.2 + 1) result.1) := by
  have demands : demand filter { spp.ghr with globalAccuracy := accuracy spp.ghr }
      (quotient config addr) (remainder config addr) =
        (filter.assign (quotient config addr) ⟨remainder config addr, true, true⟩,
          { spp.ghr with
            globalAccuracy := accuracy spp.ghr, pfUseful := spp.ghr.pfUseful + 1 }) := by
    unfold demand
    rw [waiting]
    exact if_pos ⟨rfl, rfl⟩
  have held : ((filter.assign (quotient config addr) ⟨remainder config addr, true, true⟩).cells
      (quotient config addr)).holds (remainder config addr) = true := by
    rw [CArray.cells_assign_self]
    unfold FilterEntry.holds
    rw [decide_eq_true rfl, Bool.and_true, Bool.true_or]
  have ends := repeat_ends large repeating member demands
  rw [ask_held _ held] at ends
  rw [← repeating.counts]
  exact ends

end Prefetcher

namespace Run

variable {addrs : List Address} {addr : Address} {filter : PrefetchFilter} {counts : Nat × Nat}
variable {state : Run}

theorem run_append (state : Run) (first second : List Event) :
    state.run config (first ++ second) =
      state.run config first >>= fun middle => middle.run config second := List.foldlM_append

theorem run_operate (state : Run) (addr : Address) {Allowed : Fault → Prop}
    {Post : Prefetcher → Prop}
    (ends : Ends Allowed (state.spp.cacheOperate config addr) (fun result => Post result.1))
    (rest : List Event) {Last : Run → Prop}
    (later : ∀ next : Run, Post next.spp → Ends Allowed (next.run config rest) Last) :
    Ends Allowed (state.run config (.operate addr :: rest)) Last := by
  unfold run
  rw [List.foldlM_cons]
  unfold step
  simp only
  rw [bind_assoc]
  apply ends.bind
  intro result post
  exact later { spp := result.1, prefetched := state.prefetched ++ result.2 } post

variable (large : 1 < config.mshrSize)

include large

theorem run_twice (repeating : state.spp.Repeating config addrs filter counts)
    (member : addr ∈ addrs)
    (other : (filter.cells (quotient config addr)).remainderTag ≠ remainder config addr) :
    Ends (fun _ => False) (state.run config [.operate addr, .operate addr]) (fun next =>
      next.spp.Repeating config addrs
        (filter.assign (quotient config addr) ⟨remainder config addr, true, true⟩)
        ((counted counts).1, (counted counts).2 + 1)) := by
  apply run_operate state addr (Prefetcher.repeat_new large repeating member other)
  intro next prefetched
  apply run_operate next addr
    (Prefetcher.repeat_used large prefetched member (CArray.cells_assign_self _ _ _))
  intro last used
  rw [CArray.assign_assign] at used
  exact used

/-- Two blocks that take the same entry of the filter, each accessed twice. -/
def contest (first second : Address) : List Event :=
  [.operate first, .operate first] ++ [.operate second, .operate second]

theorem run_contest {first second : Address} (firstMember : first ∈ addrs)
    (secondMember : second ∈ addrs) (together : quotient config first = quotient config second)
    (apart : remainder config first ≠ remainder config second)
    (few : counts.1 + 2 ≤ globalCounterMax)
    (repeating : state.spp.Repeating config addrs
      (filter.assign (quotient config second) ⟨remainder config second, true, true⟩) counts) :
    Ends (fun _ => False) (state.run config (contest first second)) (fun next =>
      next.spp.Repeating config addrs
        (filter.assign (quotient config second) ⟨remainder config second, true, true⟩)
        (counts.1 + 2, counts.2 + 2)) := by
  have firstCounts : counted counts = (counts.1 + 1, counts.2) := counted_few (by omega)
  have secondCounts : counted (counts.1 + 1, counts.2 + 1) = (counts.1 + 2, counts.2 + 1) :=
    counted_few (by change counts.1 + 1 < _; omega)
  unfold contest
  rw [run_append]
  apply (run_twice large repeating firstMember ?_).bind
  · intro middle middleRepeating
    rw [together, CArray.assign_assign, firstCounts] at middleRepeating
    apply (run_twice large middleRepeating secondMember ?_).mono
    · intro last lastRepeating
      rw [CArray.assign_assign, secondCounts] at lastRepeating
      exact lastRepeating
    · rw [CArray.cells_assign_self]
      exact apart
  · rw [together, CArray.cells_assign_self]
    exact apart.symm

/-- Contests over and over, until just before the counters are halved. -/
theorem run_contests {first second : Address} (firstMember : first ∈ addrs)
    (secondMember : second ∈ addrs) (together : quotient config first = quotient config second)
    (apart : remainder config first ≠ remainder config second) (rounds : Nat) :
    ∀ {counts : Nat × Nat} {state : Run}, counts.1 + 2 * rounds ≤ globalCounterMax →
      state.spp.Repeating config addrs
        (filter.assign (quotient config second) ⟨remainder config second, true, true⟩) counts →
      Ends (fun _ => False)
        (state.run config (List.replicate rounds (contest first second)).flatten) (fun next =>
          next.spp.Repeating config addrs
            (filter.assign (quotient config second) ⟨remainder config second, true, true⟩)
            (counts.1 + 2 * rounds, counts.2 + 2 * rounds)) := by
  induction rounds with
  | zero =>
      intro counts state _few repeating
      exact repeating
  | succ rounds ih =>
      intro counts state few repeating
      rw [List.replicate_succ, List.flatten_cons, run_append]
      apply (run_contest large firstMember secondMember together apart (by omega) repeating).bind
      intro next nextRepeating
      apply (ih (by change counts.1 + 2 + 2 * rounds ≤ _; omega) nextRepeating).mono
      intro last lastRepeating
      rw [show counts.1 + 2 * (rounds + 1) = counts.1 + 2 + 2 * rounds by omega,
        show counts.2 + 2 * (rounds + 1) = counts.2 + 2 + 2 * rounds by omega]
      exact lastRepeating

theorem run_waiting (waiting : List Address) :
    ∀ {filter : PrefetchFilter} {counts : Nat × Nat} {state : Run},
      state.spp.Repeating config addrs filter counts →
      (∀ addr ∈ waiting, addr ∈ addrs ∧
        filter.cells (quotient config addr) = ⟨remainder config addr, true, false⟩) →
      (waiting.map (quotient config)).Nodup →
      Ends (fun _ => False) (state.run config (waiting.map Event.operate)) (fun next =>
        ∃ last, next.spp.Repeating config addrs last (counts.1, counts.2 + waiting.length)) := by
  induction waiting with
  | nil =>
      intro filter counts state repeating _waits _apart
      exact ⟨filter, repeating⟩
  | cons addr rest ih =>
      intro filter counts state repeating waits apart
      obtain ⟨member, entry⟩ := waits addr List.mem_cons_self
      obtain ⟨alone, restApart⟩ := List.nodup_cons.mp apart
      rw [List.map_cons]
      apply run_operate state addr (Prefetcher.repeat_used large repeating member entry)
      intro next nextRepeating
      refine (ih nextRepeating ?_ restApart).mono ?_
      · intro other otherMember
        obtain ⟨known, otherEntry⟩ := waits other (List.mem_cons_of_mem addr otherMember)
        refine ⟨known, ?_⟩
        rw [CArray.cells_assign_other]
        · exact otherEntry
        · intro same
          exact alone (same ▸ List.mem_map_of_mem otherMember)
      · rintro last ⟨lastFilter, lastRepeating⟩
        rw [List.length_cons, ← Nat.add_assoc, Nat.add_right_comm]
        exact ⟨lastFilter, lastRepeating⟩

end Run

end ChampSim.Spp

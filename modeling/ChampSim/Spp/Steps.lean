/-
What the stages of an access leave: how far the prefetches of a step move the
head of the queues, what reading a pattern adds to them, and that the lookahead
loop has passes enough.
-/

import ChampSim.Spp.Operate
import Mathlib.Algebra.BigOperators.Fin

set_option autoImplicit false

namespace ChampSim.Spp

open Outcome

variable {Allowed : Fault → Prop} {config : SppConfig}

/-! ### The queues -/

namespace Queues

/-- The confidence at an index, and none outside of the queue. -/
def confidence (queues : Queues config) (index : Nat) : Nat :=
  if within : index < config.mshrSize then queues.confidenceQ.cells ⟨index, within⟩ else 0

/-- How many of the confidences from one index to another are high. -/
def pending (queues : Queues config) (head tail : Nat) : Nat :=
  (List.range' head (tail - head)).countP (fun index =>
    decide (pfThreshold ≤ queues.confidence index))

theorem pending_self (queues : Queues config) (head : Nat) : queues.pending head head = 0 := by
  unfold pending
  rw [Nat.sub_self]
  rfl

theorem pending_succ (queues : Queues config) {head tail : Nat} (ordered : head ≤ tail) :
    queues.pending head (tail + 1) =
      queues.pending head tail + if pfThreshold ≤ queues.confidence tail then 1 else 0 := by
  unfold pending
  rw [Nat.succ_sub ordered, List.range'_1_concat, List.countP_append, List.countP_singleton]
  rw [show head + (tail - head) = tail by omega]
  simp only [decide_eq_true_eq]

theorem pending_eq_zero {queues : Queues config} {head tail : Nat}
    (quiet : ∀ index, head ≤ index → index < tail → queues.confidence index < pfThreshold) :
    queues.pending head tail = 0 := by
  unfold pending
  rw [List.countP_eq_zero]
  intro index member
  have bounds := List.mem_range'_1.mp member
  have low := quiet index bounds.1 (by omega)
  rw [decide_eq_true_eq]
  omega

theorem pending_within (queues : Queues config) {head : Nat} (within : head ≤ config.mshrSize)
    (tail : Nat) : head + queues.pending head tail ≤ config.mshrSize := by
  rcases Nat.le_total tail head with before | after
  · have nothing : queues.pending head tail = 0 :=
      pending_eq_zero (fun index above below => by omega)
    omega
  · have grows : head + queues.pending head tail ≤ min tail config.mshrSize := by
      induction tail, after using Nat.le_induction with
      | base =>
          rw [pending_self]
          omega
      | succ tail ordered ih =>
          rw [pending_succ queues ordered]
          split
          · rename_i high
            have inside : tail < config.mshrSize := by
              by_contra outside
              unfold confidence at high
              rw [dif_neg outside] at high
              exact absurd high (by decide)
            omega
          · omega
    omega

theorem write_ends (queues : Queues config) (index confidence : Nat) (delta : Int)
    (overflow : config.mshrSize ≤ index → Allowed .queueOutOfBounds) :
    Ends Allowed (queues.write index confidence delta) (fun next =>
      ∀ other, next.confidence other = if other = index then confidence
        else queues.confidence other) := by
  unfold write
  split
  · rename_i within
    intro other
    unfold Queues.confidence
    by_cases same : other = index
    · subst same
      rw [dif_pos within, if_pos rfl]
      exact CArray.cells_assign_self _ _ _
    · rw [if_neg same]
      split
      · exact CArray.cells_assign_other _ (fun equal => same (congrArg Fin.val equal)) _
      · rfl
  · rename_i outside
    exact overflow (Nat.not_lt.mp outside)

theorem writeConfidence_ends (queues : Queues config) (index confidence : Nat)
    (overflow : config.mshrSize ≤ index → Allowed .queueOutOfBounds) :
    Ends Allowed (queues.writeConfidence index confidence) (fun next =>
      ∀ other, next.confidence other = if other = index then confidence
        else queues.confidence other) := by
  have written := queues.write_ends index confidence 0 overflow
  unfold write at written
  unfold writeConfidence
  split
  · rename_i within
    rw [dif_pos within] at written
    exact written
  · rename_i outside
    rw [dif_neg outside] at written
    exact written

theorem read_ends (queues : Queues config) (index : Nat)
    (overflow : config.mshrSize ≤ index → Allowed .queueOutOfBounds) :
    Ends Allowed (queues.read index) (fun entry => entry.1 = queues.confidence index) := by
  unfold read confidence
  split
  · rfl
  · rename_i outside
    exact overflow (Nat.not_lt.mp outside)

end Queues

/-! ### The prefetches of one step -/

theorem GlobalRegister.updateEntry_ends (ghr : GlobalRegister) (pfSig pfConfidence pfOffset : Nat)
    (pfDelta : Int) (victim : Allowed .ghrVictim) :
    Ends Allowed (ghr.updateEntry pfSig pfConfidence pfOffset pfDelta) (fun next =>
      ∃ entries, next = { ghr with entries := entries }) := by
  unfold updateEntry
  split
  · exact ⟨_, rfl⟩
  · split
    · exact ⟨_, rfl⟩
    · exact victim

theorem GlobalRegister.issue_globalAccuracy (ghr : GlobalRegister) :
    ghr.issue.globalAccuracy = ghr.globalAccuracy := by
  unfold issue
  split
  · rfl
  · rfl

theorem check_globalAccuracy (config : SppConfig) (filter : PrefetchFilter) (ghr : GlobalRegister)
    (addr : Address) (request : FilterRequest) :
    (check config filter ghr addr request).2.2.globalAccuracy = ghr.globalAccuracy := by
  cases request with
  | sppL2cPrefetch =>
      unfold check
      simp only
      split
      · rfl
      · rfl
  | sppLlcPrefetch => rfl
  | l2cDemand =>
      change (demand filter ghr _ _).2.globalAccuracy = _
      unfold demand
      simp only
      split
      · simp only
        split
        · rfl
        · rfl
      · rfl
  | l2cEvict =>
      change (evict filter ghr _).2.globalAccuracy = _
      unfold evict
      simp only
      split
      · rfl
      · rfl

namespace Lookahead

variable {look next : Lookahead config}

/-- The prefetches of a step leave the variables that the next one reads. -/
structure Frame (look next : Lookahead config) : Prop where
  queues : next.queues = look.queues
  pfQTail : next.pfQTail = look.pfQTail
  lookaheadConf : next.lookaheadConf = look.lookaheadConf
  depth : next.depth = look.depth
  baseAddr : next.baseAddr = look.baseAddr
  currSig : next.currSig = look.currSig
  globalAccuracy : next.ghr.globalAccuracy = look.ghr.globalAccuracy

theorem Frame.refl (look : Lookahead config) : Frame look look :=
  ⟨rfl, rfl, rfl, rfl, rfl, rfl, rfl⟩

theorem Frame.trans {middle : Lookahead config} (first : Frame look middle)
    (second : Frame middle next) : Frame look next where
  queues := second.queues.trans first.queues
  pfQTail := second.pfQTail.trans first.pfQTail
  lookaheadConf := second.lookaheadConf.trans first.lookaheadConf
  depth := second.depth.trans first.depth
  baseAddr := second.baseAddr.trans first.baseAddr
  currSig := second.currSig.trans first.currSig
  globalAccuracy := second.globalAccuracy.trans first.globalAccuracy

theorem filtered_frame (look : Lookahead config) (pfAddr : Address) (confidence : Nat) :
    Frame look (look.filtered pfAddr confidence) ∧
      (look.filtered pfAddr confidence).pfQHead = look.pfQHead := by
  have kept := check_globalAccuracy config look.filter look.ghr pfAddr
    (prefetchRequest confidence)
  unfold filtered
  simp only
  split
  · refine ⟨⟨rfl, rfl, rfl, rfl, rfl, rfl, ?_⟩, rfl⟩
    simp only
    split
    · exact (GlobalRegister.issue_globalAccuracy _).trans kept
    · exact kept
  · exact ⟨⟨rfl, rfl, rfl, rfl, rfl, rfl, kept⟩, rfl⟩

theorem request_ends (page : BitVec 64) (look : Lookahead config) (confidence : Nat) (delta : Int)
    (victim : Allowed .ghrVictim) :
    Ends Allowed (look.request page confidence delta) (fun next =>
      Frame look next ∧ next.pfQHead = look.pfQHead) := by
  unfold request
  simp only
  split
  · exact filtered_frame look _ confidence
  · apply (look.ghr.updateEntry_ends _ _ _ _ victim).bind
    rintro ghr ⟨entries, rfl⟩
    exact ⟨⟨rfl, rfl, rfl, rfl, rfl, rfl, rfl⟩, rfl⟩

structure IssuedTo (look : Lookahead config) (index : Nat) (state : Lookahead config × Bool) :
    Prop where
  frame : Frame look state.1
  pfQHead : state.1.pfQHead = look.pfQHead + look.queues.pending look.pfQHead index
  goesOn : state.2 = true ↔ 0 < look.queues.pending look.pfQHead index

/-- The head moves by the confident entries, and the loop goes on exactly if there are any. -/
theorem issueAll_ends (page : BitVec 64) (look : Lookahead config)
    (ordered : look.pfQHead ≤ look.pfQTail)
    (overflow : config.mshrSize < look.pfQTail → Allowed .queueOutOfBounds)
    (victim : Allowed .ghrVictim) :
    Ends Allowed (look.issueAll page) (IssuedTo look look.pfQTail) := by
  have last : look.pfQHead + (look.pfQTail - look.pfQHead) = look.pfQTail :=
    Nat.add_sub_cancel' ordered
  have folded : Ends Allowed (look.issueAll page)
      (IssuedTo look (look.pfQHead + (look.pfQTail - look.pfQHead))) := by
    apply foldlM_range_ends (issueAt page) (IssuedTo look)
    · refine ⟨Frame.refl look, ?_, ?_⟩
      · rw [Queues.pending_self]
        rfl
      · rw [Queues.pending_self]
        exact iff_of_false Bool.false_ne_true (Nat.lt_irrefl 0)
    · rintro index ⟨state, doLookahead⟩ above below ⟨frame, head, asked⟩
      have within : config.mshrSize ≤ index → Allowed .queueOutOfBounds :=
        fun outside => overflow (by omega)
      have counted := Queues.pending_succ look.queues above
      unfold issueAt
      apply (Queues.read_ends state.queues index within).bind
      rintro ⟨confidence, delta⟩ value
      simp only at value head asked frame
      rw [frame.queues] at value
      simp only
      split
      · rename_i high
        rw [if_pos (value ▸ high)] at counted
        apply (request_ends page state confidence delta victim).bind
        rintro next ⟨nextFrame, nextHead⟩
        have whole := frame.trans nextFrame
        refine ⟨⟨whole.queues, whole.pfQTail, whole.lookaheadConf, whole.depth, whole.baseAddr,
          whole.currSig, whole.globalAccuracy⟩, ?_, ?_⟩
        · change next.pfQHead + 1 = _
          omega
        · exact iff_of_true rfl (counted ▸ Nat.succ_pos _)
      · rename_i low
        rw [if_neg (value ▸ low)] at counted
        exact ⟨frame, counted ▸ head, counted ▸ asked⟩
  rw [last] at folded
  exact folded

end Lookahead

/-! ### Reading a pattern -/

/-- The queues after so many confident ways, whose confidences are part of a total. -/
structure Scanned (queues : Queues config) (tail added total : Nat) (scan : WayScan config) :
    Prop where
  pfQTail : scan.pfQTail = tail + added
  none : added = 0 → scan.maxConf = 0 ∧ scan.lookaheadWay = none
  some : 0 < added → pfThreshold ≤ scan.maxConf ∧
    scan.maxConf + pfThreshold * added ≤ total + pfThreshold
  outside : ∀ index, index < tail ∨ tail + added ≤ index →
    scan.queues.confidence index = queues.confidence index
  inside : ∀ index, tail ≤ index → index < tail + added →
    pfThreshold ≤ scan.queues.confidence index

theorem WayScan.consider_ends (set : PatternSet) (conf : Fin ptWay → Nat) {queues : Queues config}
    {tail added total : Nat} {scan : WayScan config} (way : Fin ptWay)
    (scanned : Scanned queues tail added total scan)
    (overflow : config.mshrSize < tail + (added + if pfThreshold ≤ conf way then 1 else 0) →
      Allowed .queueOutOfBounds) :
    Ends Allowed (WayScan.consider set conf scan way)
      (Scanned queues tail (added + if pfThreshold ≤ conf way then 1 else 0)
        (total + conf way)) := by
  unfold WayScan.consider
  split
  · rename_i high
    rw [if_pos high] at overflow
    have within : config.mshrSize ≤ scan.pfQTail → Allowed .queueOutOfBounds := by
      intro full
      rw [scanned.pfQTail] at full
      exact overflow (by omega)
    apply (Queues.write_ends scan.queues scan.pfQTail (conf way) _ within).bind
    intro written confidences
    refine ⟨?_, ?_, ?_, ?_, ?_⟩
    · change scan.pfQTail + 1 = _
      rw [scanned.pfQTail]
      rfl
    · intro impossible
      cases impossible
    · intro _positive
      change pfThreshold ≤ max scan.maxConf (conf way) ∧
        max scan.maxConf (conf way) + pfThreshold * (added + 1) ≤ _
      rw [Nat.mul_succ]
      rcases Nat.eq_zero_or_pos added with zero | positive
      · rw [(scanned.none zero).1, zero]
        omega
      · have bounds := scanned.some positive
        omega
    · intro index away
      rw [confidences index, scanned.pfQTail, if_neg (by omega)]
      exact scanned.outside index (by omega)
    · intro index above below
      rw [confidences index, scanned.pfQTail]
      split
      · exact high
      · exact scanned.inside index above (by omega)
  · rw [Nat.add_zero]
    refine ⟨scanned.pfQTail, scanned.none, ?_, scanned.outside, scanned.inside⟩
    intro positive
    have bounds := scanned.some positive
    omega

theorem WayScan.scan_ends (set : PatternSet) (conf : Fin ptWay → Nat) {queues : Queues config}
    {tail : Nat} (ways : List (Fin ptWay)) :
    ∀ {added total : Nat} {scan : WayScan config}, Scanned queues tail added total scan →
      (config.mshrSize <
          tail + (added + ways.countP (fun way => decide (pfThreshold ≤ conf way))) →
        Allowed .queueOutOfBounds) →
      Ends Allowed (ways.foldlM (WayScan.consider set conf) scan)
        (Scanned queues tail (added + ways.countP (fun way => decide (pfThreshold ≤ conf way)))
          (total + (ways.map conf).sum)) := by
  induction ways with
  | nil =>
      intro added total scan scanned _overflow
      exact scanned
  | cons way rest ih =>
      intro added total scan scanned overflow
      have counted : (way :: rest).countP (fun other => decide (pfThreshold ≤ conf other)) =
          (if pfThreshold ≤ conf way then 1 else 0) +
            rest.countP (fun other => decide (pfThreshold ≤ conf other)) := by
        rw [List.countP_cons, Nat.add_comm]
        simp only [decide_eq_true_eq]
      rw [counted, ← Nat.add_assoc added] at overflow ⊢
      rw [List.map_cons, List.sum_cons, ← Nat.add_assoc total, List.foldlM_cons]
      apply (WayScan.consider_ends set conf way scanned (fun full => overflow (by omega))).bind
      intro next nextScanned
      exact ih nextScanned overflow

namespace Lookahead

def confOf (pt : PatternTable) (look : Lookahead config) : Fin ptWay → Nat :=
  (pt.cells (patternIndex look.currSig)).pfConf look.ghr.globalAccuracy look.depth
    look.lookaheadConf

def added (pt : PatternTable) (look : Lookahead config) : Nat :=
  (List.finRange ptWay).countP (fun way => decide (pfThreshold ≤ look.confOf pt way))

structure ReadSome (pt : PatternTable) (look read : Lookahead config) : Prop where
  pfQHead : read.pfQHead = look.pfQHead
  pfQTail : read.pfQTail = look.pfQTail + look.added pt + 1
  currSig : read.currSig = look.currSig
  ghr : read.ghr = look.ghr
  filter : read.filter = look.filter
  prefetched : read.prefetched = look.prefetched
  quiet : look.added pt = 0 → read.lookaheadConf = 0 ∧ read.depth = look.depth
  some : 0 < look.added pt → pfThreshold ≤ read.lookaheadConf ∧ read.depth = look.depth + 1 ∧
    read.lookaheadConf + pfThreshold * look.added pt ≤
      ((List.finRange ptWay).map (look.confOf pt)).sum + pfThreshold
  outside : ∀ index, index < look.pfQTail ∨ look.pfQTail + look.added pt ≤ index →
    read.queues.confidence index = look.queues.confidence index
  inside : ∀ index, look.pfQTail ≤ index → index < look.pfQTail + look.added pt →
    pfThreshold ≤ read.queues.confidence index

theorem readPattern_some (pt : PatternTable) (look : Lookahead config)
    (patterns : (pt.cells (patternIndex look.currSig)).cSig ≠ 0)
    (overflow : config.mshrSize < look.pfQTail + look.added pt → Allowed .queueOutOfBounds) :
    Ends Allowed (look.readPattern pt) (fun result =>
      ReadSome pt look result.1 ∧ (look.added pt = 0 → result.2 = none)) := by
  have start : Scanned look.queues look.pfQTail 0 0
      { queues := look.queues, pfQTail := look.pfQTail, lookaheadWay := none, maxConf := 0 } := by
    refine ⟨rfl, fun _ => ⟨rfl, rfl⟩, fun impossible => absurd impossible (Nat.lt_irrefl 0),
      fun _index _away => rfl, fun index above below => by omega⟩
  rw [← Nat.zero_add (look.added pt)] at overflow
  unfold readPattern
  simp only
  rw [if_pos patterns]
  apply (WayScan.scan_ends (pt.cells (patternIndex look.currSig)) (look.confOf pt)
    (List.finRange ptWay) start overflow).bind
  intro scan scanned
  rw [Nat.zero_add] at scanned
  refine ⟨⟨rfl, congrArg Nat.succ scanned.pfQTail, rfl, rfl, rfl, rfl, ?_, ?_, scanned.outside,
    scanned.inside⟩, fun zero => (scanned.none zero).2⟩
  · intro zero
    have low := (scanned.none zero).1
    refine ⟨low, if_neg ?_⟩
    rw [low]
    decide
  · intro positive
    have bounds := scanned.some positive
    rw [Nat.zero_add] at bounds
    exact ⟨bounds.1, if_pos bounds.1, bounds.2⟩

structure ReadNone (look read : Lookahead config) : Prop where
  pfQHead : read.pfQHead = look.pfQHead
  pfQTail : read.pfQTail = look.pfQTail
  currSig : read.currSig = look.currSig
  ghr : read.ghr = look.ghr
  filter : read.filter = look.filter
  prefetched : read.prefetched = look.prefetched
  lookaheadConf : read.lookaheadConf = look.lookaheadConf
  depth : read.depth = look.depth
  confidence : ∀ index, read.queues.confidence index =
    if index = look.pfQTail then 0 else look.queues.confidence index

theorem readPattern_none (pt : PatternTable) (look : Lookahead config)
    (patterns : (pt.cells (patternIndex look.currSig)).cSig = 0)
    (overflow : config.mshrSize ≤ look.pfQTail → Allowed .queueOutOfBounds) :
    Ends Allowed (look.readPattern pt) (fun result =>
      ReadNone look result.1 ∧ result.2 = none) := by
  unfold readPattern
  simp only
  rw [if_neg (not_not_intro patterns)]
  apply (Queues.writeConfidence_ends look.queues look.pfQTail 0 overflow).bind
  intro queues confidences
  exact ⟨⟨rfl, rfl, rfl, rfl, rfl, rfl, rfl, rfl, confidences⟩, rfl⟩

/-! ### A pass of the loop -/

structure Stepped (read : Lookahead config) (result : Lookahead config × Bool) : Prop where
  pfQHead : result.1.pfQHead =
    read.pfQHead + read.queues.pending read.pfQHead read.pfQTail
  goesOn : result.2 = true ↔ 0 < read.queues.pending read.pfQHead read.pfQTail
  queues : result.1.queues = read.queues
  pfQTail : result.1.pfQTail = read.pfQTail
  lookaheadConf : result.1.lookaheadConf = read.lookaheadConf
  depth : result.1.depth = read.depth
  globalAccuracy : result.1.ghr.globalAccuracy = read.ghr.globalAccuracy

theorem advance_stepped (pt : PatternTable) {read issued : Lookahead config} {goesOn : Bool}
    (frame : Frame read issued)
    (head : issued.pfQHead = read.pfQHead + read.queues.pending read.pfQHead read.pfQTail)
    (asked : goesOn = true ↔ 0 < read.queues.pending read.pfQHead read.pfQTail)
    (lookaheadWay : Option (Fin ptWay)) :
    Stepped read (issued.advance pt lookaheadWay, goesOn) ∧
      (lookaheadWay = none → (issued.advance pt lookaheadWay).currSig = read.currSig) := by
  cases lookaheadWay with
  | none =>
      exact ⟨⟨head, asked, frame.queues, frame.pfQTail, frame.lookaheadConf, frame.depth,
        frame.globalAccuracy⟩, fun _ => frame.currSig⟩
  | some way =>
      refine ⟨⟨head, asked, frame.queues, frame.pfQTail, frame.lookaheadConf, frame.depth,
        frame.globalAccuracy⟩, ?_⟩
      intro impossible
      cases impossible

theorem body_some (pt : PatternTable) (page : BitVec 64) (look : Lookahead config)
    (patterns : (pt.cells (patternIndex look.currSig)).cSig ≠ 0)
    (ordered : look.pfQHead ≤ look.pfQTail)
    (overflow : config.mshrSize < look.pfQTail + look.added pt + 1 → Allowed .queueOutOfBounds)
    (victim : Allowed .ghrVictim) :
    Ends Allowed (look.body pt page) (fun result => ∃ read, ReadSome pt look read ∧
      Stepped read result ∧ (look.added pt = 0 → result.1.currSig = look.currSig)) := by
  unfold body
  apply (readPattern_some pt look patterns (fun full => overflow (by omega))).bind
  rintro ⟨read, lookaheadWay⟩ ⟨readSome, lost⟩
  have tail : read.pfQTail = look.pfQTail + look.added pt + 1 := readSome.pfQTail
  have head : read.pfQHead = look.pfQHead := readSome.pfQHead
  apply (issueAll_ends page read (by omega) (fun full => overflow (tail ▸ full)) victim).bind
  rintro ⟨issued, goesOn⟩ ⟨frame, moved, asked⟩
  obtain ⟨stepped, same⟩ := advance_stepped pt frame moved asked lookaheadWay
  exact ⟨read, readSome, stepped, fun zero => (same (lost zero)).trans readSome.currSig⟩

theorem body_none (pt : PatternTable) (page : BitVec 64) (look : Lookahead config)
    (patterns : (pt.cells (patternIndex look.currSig)).cSig = 0)
    (ordered : look.pfQHead ≤ look.pfQTail)
    (overflow : config.mshrSize ≤ look.pfQTail → Allowed .queueOutOfBounds)
    (victim : Allowed .ghrVictim) :
    Ends Allowed (look.body pt page) (fun result => ∃ read, ReadNone look read ∧
      Stepped read result ∧ result.1.currSig = look.currSig) := by
  unfold body
  apply (readPattern_none pt look patterns overflow).bind
  rintro ⟨read, lookaheadWay⟩ ⟨readNone, lost⟩
  have tail : read.pfQTail = look.pfQTail := readNone.pfQTail
  have head : read.pfQHead = look.pfQHead := readNone.pfQHead
  apply (issueAll_ends page read (by omega) (fun full => overflow (by omega)) victim).bind
  rintro ⟨issued, goesOn⟩ ⟨frame, moved, asked⟩
  obtain ⟨stepped, same⟩ := advance_stepped pt frame moved asked lookaheadWay
  exact ⟨read, readNone, stepped, (same lost).trans readNone.currSig⟩

/-! ### The loop -/

/-- The head has not passed the tail, and is in the queues. -/
structure Placed (look : Lookahead config) : Prop where
  ordered : look.pfQHead ≤ look.pfQTail
  within : look.pfQHead ≤ config.mshrSize

theorem Stepped.progress {look read : Lookahead config} {result : Lookahead config × Bool}
    (placed : Placed look) (head : read.pfQHead = look.pfQHead)
    (tail : look.pfQTail ≤ read.pfQTail) (stepped : Stepped read result) :
    Placed result.1 ∧ (result.2 = true → look.pfQHead < result.1.pfQHead) := by
  have within := Queues.pending_within read.queues (head ▸ placed.within) read.pfQTail
  have few : read.queues.pending read.pfQHead read.pfQTail ≤ read.pfQTail - read.pfQHead := by
    unfold Queues.pending
    exact List.countP_le_length.trans_eq List.length_range'
  have ordered := placed.ordered
  have moved := stepped.pfQHead
  have sameTail := stepped.pfQTail
  refine ⟨⟨by omega, by omega⟩, ?_⟩
  intro goesOn
  have some := stepped.goesOn.mp goesOn
  omega

theorem body_progress (pt : PatternTable) (page : BitVec 64) (look : Lookahead config)
    (placed : Placed look) :
    Ends (fun failure => failure = .queueOutOfBounds ∨ failure = .ghrVictim) (look.body pt page)
      (fun result => Placed result.1 ∧ (result.2 = true → look.pfQHead < result.1.pfQHead)) := by
  by_cases patterns : (pt.cells (patternIndex look.currSig)).cSig = 0
  · apply (body_none pt page look patterns placed.ordered (fun _ => Or.inl rfl)
      (Or.inr rfl)).mono
    rintro result ⟨read, readNone, stepped, _same⟩
    exact stepped.progress placed readNone.pfQHead readNone.pfQTail.ge
  · apply (body_some pt page look patterns placed.ordered (fun _ => Or.inl rfl)
      (Or.inr rfl)).mono
    rintro result ⟨read, readSome, stepped, _same⟩
    have tail := readSome.pfQTail
    exact stepped.progress placed readSome.pfQHead (by omega)

theorem lookahead_ends (pt : PatternTable) (page : BitVec 64)
    (Invariant Post : Lookahead config → Prop)
    (kept : ∀ look, Invariant look → Placed look →
      Ends Allowed (look.body pt page) (fun result =>
        if result.2 then Invariant result.1 else Post result.1))
    (look : Lookahead config) (holds : Invariant look) (placed : Placed look) :
    Ends Allowed (look.lookahead pt page) Post := by
  have enough : ∃ result, Loops.run (pass pt page) (config.mshrSize + 2) look = some result ∧
      Ends Allowed result Post := by
    apply Loops.run_of_measure (fun state => Invariant state ∧ Placed state)
      (fun state => config.mshrSize + 1 - state.pfQHead)
    · rintro state next ⟨stateHolds, statePlaced⟩ passed
      unfold pass at passed
      split at passed
      · cases passed
      · rename_i continued ran
        cases passed
        have progress := (body_progress pt page state statePlaced).of_ok ran
        have still := (kept state stateHolds statePlaced).of_ok ran
        have within := statePlaced.within
        have moves : state.pfQHead < next.pfQHead := progress.2 rfl
        exact ⟨⟨still, progress.1⟩, by omega⟩
      · cases passed
    · rintro state result ⟨stateHolds, statePlaced⟩ passed
      unfold pass at passed
      split at passed
      · rename_i failure failed
        cases passed
        exact (kept state stateHolds statePlaced).of_error failed
      · cases passed
      · rename_i stopped ran
        cases passed
        exact (kept state stateHolds statePlaced).of_ok ran
    · exact ⟨holds, placed⟩
    · omega
  obtain ⟨result, ran, post⟩ := enough
  unfold lookahead
  rw [ran]
  exact post

end Lookahead

end ChampSim.Spp

/-
Every stage of an operation accounts for the walks.

A walk is in one of the queues, or among the steps that have not joined them
yet, or was answered. A response moves all entries of its block, a fill moves
one down, and an accepted request starts one.
-/

import ChampSim.Ptw.Walks

set_option autoImplicit false

namespace ChampSim.Ptw

open Cache (Request Response Channel Waitable)
open Msl (LruTable)
open Outcome (Ends need need_value)
open Vmem (Paging VirtualMemory)

def PtwConfig.levels (config : PtwConfig) : Nat := config.localPsclDims.length

def tally (number : Nat) (entries : List PtwMshr) : Nat :=
  entries.countP (fun entry => decide (entry.walk.number = number))

@[simp] theorem tally_nil (number : Nat) : tally number [] = 0 := rfl

@[simp] theorem tally_append (number : Nat) (entries others : List PtwMshr) :
    tally number (entries ++ others) = tally number entries + tally number others :=
  List.countP_append

theorem tally_perm (number : Nat) {entries others : List PtwMshr} (same : entries.Perm others) :
    tally number entries = tally number others :=
  same.countP_eq _

theorem tally_filter (number : Nat) (wanted : PtwMshr → Bool) (entries : List PtwMshr) :
    tally number (entries.filter wanted) + tally number (entries.filter (fun entry =>
      !wanted entry)) = tally number entries := by
  rw [← tally_append]
  exact tally_perm number (List.filter_append_perm wanted entries)

theorem tally_congr {entries others : List PtwMshr} (number : Nat)
    (same : entries.map (fun entry => entry.walk.number) =
      others.map (fun entry => entry.walk.number)) : tally number entries = tally number others := by
  have counted : ∀ items : List PtwMshr, tally number items =
      (items.map (fun entry => entry.walk.number)).countP (fun other => decide (other = number)) := by
    intro items
    rw [List.countP_map]
    rfl
  rw [counted, counted, same]

theorem PtwConfig.levels_le (config : PtwConfig) : config.levels ≤ 16 := by
  unfold levels localPsclDims
  rw [List.length_mergeSort]
  exact (List.length_filter_le _ _).trans config.sixteen

namespace PageTableWalker

variable {config : PtwConfig} {walker : PageTableWalker config} {moving finished : List PtwMshr}

/-- All walks are accounted for, with steps that have not joined the MSHR yet, and with what is
left of `finished`. -/
structure Sound (walker : PageTableWalker config) (moving finished : List PtwMshr) : Prop where
  sized : walker.pscl.length = config.levels
  leveled : Leveled config.levels walker.pscl
  counts : ∀ number, tally number walker.mshr + tally number moving + tally number finished +
    tally number walker.completed + tally number walker.ledger.answered =
      if number < walker.ledger.accepted.length then 1 else 0
  waiting : ∀ entry ∈ walker.mshr ++ moving,
    Stands config.levels walker.cr3Addr walker.ledger.accepted walker.vmem entry
  inner : ∀ entry ∈ finished,
    Stands config.levels walker.cr3Addr walker.ledger.accepted walker.vmem entry ∧
      0 < entry.translationLevel ∧ Answered walker.vmem entry
  last : ∀ entry ∈ walker.completed ++ walker.ledger.answered,
    Stands config.levels walker.cr3Addr walker.ledger.accepted walker.vmem entry ∧
      entry.translationLevel = 0 ∧ Answered walker.vmem entry

/-! ### Responses -/

theorem finishEntry_ends (vmem : VirtualMemory config.paging) (entry : PtwMshr) :
    Ends InRange (walker.finishEntry vmem entry) (fun done => vmem.Extends done.2 ∧
      (∃ data, done.1 = { entry with data }) ∧ Answered done.2 done.1) := by
  unfold finishEntry
  dsimp only
  split
  case isTrue last =>
    refine ⟨vmem.vaToPa_extends _ _, ⟨_, rfl⟩, ?_⟩
    unfold Answered
    rw [if_pos last]
    exact ⟨_, vmem.vpageToPpageMap_of_vaToPa _ _, rfl⟩
  case isFalse inner =>
    apply (need_value (by intro impossible; cases impossible) _).bind
    intro called isCalled
    refine ⟨Vmem.VirtualMemory.getPtePa_extends isCalled, ⟨_, rfl⟩, ?_⟩
    unfold Answered
    rw [if_neg inner]
    exact Vmem.VirtualMemory.pageTable_of_getPtePa isCalled

theorem finishEntries_ends (entries : List PtwMshr) (vmem : VirtualMemory config.paging) :
    Ends InRange (walker.finishEntries entries vmem) (fun done => vmem.Extends done.2 ∧
      List.Forall₂ (fun entry after => ∃ data, after = { entry with data }) entries done.1 ∧
      ∀ after ∈ done.1, Answered done.2 after) := by
  induction entries generalizing vmem with
  | nil => exact ⟨vmem.extends_refl, .nil, by simp⟩
  | cons entry rest ih =>
      unfold finishEntries
      apply (finishEntry_ends vmem entry).bind
      intro finished ⟨kept, same, answered⟩
      apply (ih finished.2).bind
      intro others ⟨keptToo, rest, allAnswered⟩
      refine ⟨kept.trans keptToo, .cons same rest, ?_⟩
      intro after member
      rcases List.mem_cons.mp member with isFirst | later
      · rw [isFirst]
        exact answered.mono keptToo
      · exact allAnswered after later

theorem numbers_of_data {entries after : List PtwMshr}
    (same : List.Forall₂ (fun entry next => ∃ data, next = ({ entry with data } : PtwMshr))
      entries after) :
    entries.map (fun entry => entry.walk.number) = after.map (fun entry => entry.walk.number) := by
  induction same with
  | nil => rfl
  | cons first _rest ih =>
      obtain ⟨data, isNext⟩ := first
      rw [List.map_cons, List.map_cons, ih, isNext]

theorem mem_of_data {entries after : List PtwMshr} {next : PtwMshr}
    (same : List.Forall₂ (fun entry next => ∃ data, next = ({ entry with data } : PtwMshr))
      entries after) (member : next ∈ after) :
    ∃ entry ∈ entries, ∃ data, next = ({ entry with data } : PtwMshr) := by
  induction same with
  | nil => cases member
  | cons first _rest ih =>
      rcases List.mem_cons.mp member with isFirst | later
      · rw [isFirst]
        exact ⟨_, List.mem_cons_self, first⟩
      · obtain ⟨entry, inRest, data⟩ := ih later
        exact ⟨entry, List.mem_cons_of_mem _ inRest, data⟩

theorem finishPacket_ends (sound : Sound walker [] walker.finished) (packet : Response) :
    Ends InRange (walker.finishPacket packet) (fun next => Sound next [] next.finished) := by
  unfold finishPacket
  dsimp only
  apply (finishEntries_ends _ walker.vmem).bind
  intro done ⟨kept, same, answered⟩
  have divided := config.partition.perm
    (fun entry => decide (entry.address.sliceUpper config.log2BlockSize =
      packet.address.sliceUpper config.log2BlockSize)) walker.mshr
  have stands : ∀ after ∈ done.1,
      Stands config.levels walker.cr3Addr walker.ledger.accepted done.2 after := by
    intro after member
    obtain ⟨entry, inSplit, data, isAfter⟩ := mem_of_data same member
    rw [isAfter]
    apply Stands.data
    apply Stands.extends ?_ kept
    apply sound.waiting entry
    rw [List.append_nil]
    exact divided.subset (List.mem_append_left _ inSplit)
  refine ⟨sound.sized, sound.leveled, ?_, ?_, ?_, ?_⟩
  · intro number
    have whole := sound.counts number
    have parts := tally_perm number divided
    have moved := tally_congr number (numbers_of_data same)
    rw [tally_nil] at whole
    have levels := tally_filter number (fun entry => decide (entry.translationLevel = 0)) done.1
    simp only [tally_append, tally_nil] at parts levels ⊢
    omega
  · intro entry member
    rw [List.append_nil] at member
    apply Stands.extends ?_ kept
    apply sound.waiting entry
    rw [List.append_nil]
    exact divided.subset (List.mem_append_right _ member)
  · intro entry member
    rcases List.mem_append.mp member with before | moved
    · obtain ⟨standing, positive, known⟩ := sound.inner entry before
      exact ⟨standing.extends kept, positive, known.mono kept⟩
    · obtain ⟨inDone, inner⟩ := List.mem_filter.mp moved
      refine ⟨stands entry inDone, ?_, answered entry inDone⟩
      rw [Bool.not_eq_true', decide_eq_false_iff_not] at inner
      exact Nat.pos_of_ne_zero inner
  · intro entry member
    have cases : entry ∈ walker.completed ++ walker.ledger.answered ∨
        entry ∈ done.1.filter (fun entry => decide (entry.translationLevel = 0)) := by
      simp only [List.mem_append] at member ⊢
      tauto
    rcases cases with before | moved
    · obtain ⟨standing, isLast, known⟩ := sound.last entry before
      exact ⟨standing.extends kept, isLast, known.mono kept⟩
    · obtain ⟨inDone, isLast⟩ := List.mem_filter.mp moved
      exact ⟨stands entry inDone, decide_eq_true_eq.mp isLast, answered entry inDone⟩

theorem finishPackets_ends (sound : Sound walker [] walker.finished) :
    Ends InRange walker.finishPackets (fun next => Sound next [] next.finished) := by
  unfold finishPackets
  apply (Outcome.foldlM_ends _ (fun state => Sound state [] state.finished)
    walker.lowerLevel.returned
    (fun state packet _member still => finishPacket_ends still packet) walker sound).bind
  intro finished still
  exact ⟨still.sized, still.leveled, still.counts, still.waiting, still.inner, still.last⟩

theorem answerCompleted_sound (sound : Sound walker [] walker.finished) :
    Sound walker.answerCompleted [] walker.answerCompleted.finished := by
  have whole := Queue.span_append_beyond config.maxFill
    (fun (entry : PtwMshr) => entry.data.isReadyAt walker.currentTime) walker.completed
  refine ⟨sound.sized, sound.leveled, ?_, sound.waiting, sound.inner, ?_⟩
  · intro number
    have counted := sound.counts number
    rw [← whole, tally_append] at counted
    unfold answerCompleted
    dsimp only
    rw [tally_append]
    omega
  · intro entry member
    apply sound.last entry
    rw [← whole]
    unfold answerCompleted at member
    simp only [List.mem_append] at member ⊢
    tauto

/-! ### Steps of walks -/

/-- What handling an item keeps, when the item is refused and when it becomes a step. -/
def Handled {Item : Type}
    (Invariant : PageTableWalker config → List PtwMshr → List Item → Prop)
    (moving : List PtwMshr) (item : Item) (rest : List Item)
    (handled : Option PtwMshr × PageTableWalker config) : Prop :=
  match handled.1 with
  | none => Invariant handled.2 moving (item :: rest)
  | some source => Invariant handled.2 (moving ++ [source]) rest

theorem handleFront_ends {Item : Type} {Allowed : Fault → Prop}
    {handle : PageTableWalker config → Item →
      Except Fault (Option PtwMshr × PageTableWalker config)}
    (Invariant : PageTableWalker config → List PtwMshr → List Item → Prop)
    (kept : ∀ walker moving item rest, Invariant walker moving (item :: rest) →
      Ends Allowed (handle walker item) (Handled Invariant moving item rest))
    (items : List Item) (walker : PageTableWalker config) (moving : List PtwMshr)
    (holds : Invariant walker moving items) :
    Ends Allowed (handleFront handle walker items) (fun handled =>
      Invariant handled.2.2 (moving ++ handled.1) handled.2.1) := by
  induction items generalizing walker moving with
  | nil =>
      unfold handleFront
      rw [← List.append_nil moving] at holds
      exact holds
  | cons item rest ih =>
      unfold handleFront
      apply (kept walker moving item rest holds).bind
      intro handled after
      unfold Handled at after
      cases isSource : handled.1 with
      | none =>
          rw [isSource] at after
          rw [← List.append_nil moving] at after
          exact after
      | some source =>
          rw [isSource] at after
          apply (ih handled.2 (moving ++ [source]) after).bind
          intro others still
          rw [List.append_assoc] at still
          exact still

theorem stepTranslation_source {source next : PtwMshr} {lower : Channel}
    (stepped : walker.stepTranslation source = some (next, lower)) :
    next = { source with
      walk := { source.walk with reads := source.walk.reads ++ [source.address] } } := by
  obtain ⟨_channel, _accepted, same⟩ := Option.map_eq_some_iff.mp stepped
  exact (congrArg Prod.fst same).symm

theorem handleFill_ends {item : PtwMshr} {rest : List PtwMshr}
    (sound : Sound walker moving (item :: rest)) :
    Ends InRange (walker.handleFill item) (Handled Sound moving item rest) := by
  obtain ⟨stands, positive, answered⟩ := sound.inner item List.mem_cons_self
  have below : item.translationLevel ≤ config.levels := by
    obtain ⟨_record, follows⟩ := stands
    exact follows.below.trans follows.within
  have sixteen := config.levels_le
  have index : (BitVec.ofNat 64 walker.pscl.length -
      BitVec.ofNat 64 item.translationLevel).toNat = config.levels - item.translationLevel := by
    rw [sound.sized]
    bv_omega
  unfold handleFill
  rw [index]
  have within : config.levels - item.translationLevel < walker.pscl.length := by
    rw [sound.sized]
    omega
  dsimp only
  rw [List.getElem?_eq_getElem within]
  have table := sound.leveled _ _ (List.getElem?_eq_getElem within)
  apply (Pscl.fill_ends _ table (by dsimp only; omega)).bind
  intro filled stillTable
  have leveled : Leveled config.levels
      (walker.pscl.set (config.levels - item.translationLevel) filled) := by
    intro other chosen present
    by_cases same : config.levels - item.translationLevel = other
    · subst same
      rw [List.getElem?_set_self within] at present
      cases present
      exact stillTable
    · rw [List.getElem?_set_ne same] at present
      exact sound.leveled other chosen present
  have sized : (walker.pscl.set (config.levels - item.translationLevel) filled).length =
      config.levels := by
    rw [List.length_set]
    exact sound.sized
  split
  case h_1 =>
    exact ⟨sized, leveled, sound.counts, sound.waiting, sound.inner, sound.last⟩
  case h_2 source lower stepped =>
    have isSource := stepTranslation_source stepped
    have sourceStands := stands.step positive answered isSource
    refine ⟨sized, leveled, ?_, ?_, ?_, sound.last⟩
    · intro number
      have counted := sound.counts number
      have sameWalk : source.walk.number = item.walk.number := by
        rw [isSource]
      unfold tally at counted ⊢
      simp only [List.countP_cons, List.countP_append, List.countP_nil, sameWalk] at counted ⊢
      omega
    · intro entry member
      rw [← List.append_assoc] at member
      rcases List.mem_append.mp member with before | isLast
      · exact sound.waiting entry before
      · rw [List.mem_singleton.mp isLast]
        exact sourceStands
    · intro entry member
      exact sound.inner entry (List.mem_cons_of_mem _ member)

theorem fillFinished_ends (sound : Sound walker [] walker.finished) (bandwidth : Nat) :
    Ends InRange (walker.fillFinished bandwidth) (fun filled =>
      Sound filled.2 filled.1 filled.2.finished) := by
  have whole := Queue.span_append_beyond bandwidth
    (fun (entry : PtwMshr) => entry.data.isReadyAt walker.currentTime) walker.finished
  rw [← whole] at sound
  unfold fillFinished
  apply (handleFront_ends
    (fun state moving items => Sound state moving (items ++ Queue.beyond bandwidth
      (fun (entry : PtwMshr) => entry.data.isReadyAt walker.currentTime) walker.finished))
    (fun state moving item rest still => handleFill_ends still) _ walker [] sound).bind
  intro handled still
  exact ⟨still.sized, still.leveled, still.counts, still.waiting, still.inner, still.last⟩

/-- A request that is accepted starts a walk, at the level that its hits give. -/
theorem handleRead_ends (sound : Sound walker moving walker.finished) (upper : Nat)
    (item : Request) (rest : List Request) :
    Ends InRange (walker.handleRead upper item)
      (Handled (fun state moving _items => Sound state moving state.finished) moving item rest) := by
  unfold handleRead
  apply (Pscl.checkHits_ends _ sound.leveled).bind
  intro checked ⟨hits, leveled, sameLength⟩
  have sized : checked.2.length = config.levels := sameLength.trans sound.sized
  apply (need_value (by intro impossible; cases impossible) _).bind
  intro walkOffset isOffset
  obtain ⟨startsAt, within⟩ := foldl_level config.levels
    ⟨item.vAddress, walker.cr3Addr, walker.pscl.length⟩ sound.sized checked.1 hits
  dsimp only
  split
  case h_1 =>
    exact ⟨sized, leveled, sound.counts, sound.waiting, sound.inner, sound.last⟩
  case h_2 source lower stepped =>
    have isSource := stepTranslation_source stepped
    have stands : Stands config.levels walker.cr3Addr
        (walker.ledger.accepted ++ [⟨item, upper, checked.1⟩]) walker.vmem source := by
      refine ⟨⟨item, upper, checked.1⟩, ?_⟩
      rw [isSource]
      refine
        { recorded := List.getElem?_concat_length
          vAddress := rfl
          cpu := rfl
          pfMetadata := rfl
          instrDependOnMe := rfl
          toReturn := rfl
          start := startsAt
          within := ?_
          below := Nat.le_refl _
          reads := ⟨walkOffset, [], isOffset, ?_, ?_⟩ }
      · exact startsAt.trans_le within
      · unfold walkInit Accepted.walkInit
        rw [sound.sized]
        rfl
      · dsimp only
        rw [levelsDown_self]
        exact .nil
    have more : ∀ entry,
        Stands config.levels walker.cr3Addr walker.ledger.accepted walker.vmem entry →
        Stands config.levels walker.cr3Addr
          (walker.ledger.accepted ++ [⟨item, upper, checked.1⟩]) walker.vmem entry :=
      fun entry standing => standing.mono _ walker.vmem.extends_refl
    refine ⟨sized, leveled, ?_, ?_, ?_, ?_⟩
    · intro number
      have counted := sound.counts number
      have isNumber : source.walk.number = walker.ledger.accepted.length := by
        rw [isSource]
      unfold tally at counted ⊢
      simp only [List.countP_append, List.countP_cons, List.countP_nil, isNumber,
        List.length_append, List.length_singleton, decide_eq_true_eq] at counted ⊢
      split at counted <;> split <;> split <;> omega
    · intro entry member
      rw [← List.append_assoc] at member
      rcases List.mem_append.mp member with before | isLast
      · exact more entry (sound.waiting entry before)
      · rw [List.mem_singleton.mp isLast]
        exact stands
    · intro entry member
      obtain ⟨standing, known⟩ := sound.inner entry member
      exact ⟨more entry standing, known⟩
    · intro entry member
      obtain ⟨standing, known⟩ := sound.last entry member
      exact ⟨more entry standing, known⟩

theorem readUppers_ends (channels : List Channel) (upper bandwidth : Nat)
    (walker : PageTableWalker config) (moving : List PtwMshr)
    (sound : Sound walker moving walker.finished) :
    Ends InRange (readUppers upper channels bandwidth walker) (fun read =>
      Sound read.2.2 (moving ++ read.1) read.2.2.finished) := by
  induction channels generalizing upper bandwidth walker moving with
  | nil =>
      rw [← List.append_nil moving] at sound
      exact sound
  | cons channel rest ih =>
      unfold readUppers
      apply (handleFront_ends (fun state moving _items => Sound state moving state.finished)
        (fun state moving item rest still => handleRead_ends still upper item rest)
        (channel.rq.take bandwidth) walker moving sound).bind
      intro handled still
      apply (ih (upper + 1) (bandwidth - handled.1.length) handled.2.2 (moving ++ handled.1)
        still).bind
      intro others after
      rw [List.append_assoc] at after
      exact after

/-! ### An operation -/

theorem operate_ends (sound : Sound walker [] walker.finished) :
    Ends InRange walker.operate (fun next => Sound next [] next.finished) := by
  have begun : Sound { walker with currentTime := walker.currentTime + config.clockPeriod } []
      walker.finished :=
    ⟨sound.sized, sound.leveled, sound.counts, sound.waiting, sound.inner, sound.last⟩
  unfold operate
  apply (finishPackets_ends begun).bind
  intro finished still
  apply (fillFinished_ends (answerCompleted_sound still) _).bind
  intro filled moved
  apply (readUppers_ends _ 0 config.maxRead filled.2 filled.1 moved).bind
  intro read after
  refine ⟨after.sized, after.leveled, ?_, ?_, after.inner, after.last⟩
  · intro number
    have counted := after.counts number
    rw [tally_append] at counted
    dsimp only
    rw [tally_append, tally_append, tally_nil]
    omega
  · intro entry member
    apply after.waiting entry
    rw [List.append_nil, List.append_assoc] at member
    exact member

end PageTableWalker

end ChampSim.Ptw

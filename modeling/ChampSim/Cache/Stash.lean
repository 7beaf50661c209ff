/-
The packets that wait for a translation.

The stash holds its translated packets before the others. An answer marks the
packets of its page and brings them to the front of the others, a cycle takes
translated packets from the front, and packets that are looked up before their
translation comes join at the back: each keeps this order.
-/

import ChampSim.Cache.Cycle
import ChampSim.Extract

set_option autoImplicit false

namespace ChampSim.Cache

def StashOrdered (stash : List TagLookup) : Prop :=
  ∃ translated waiting, stash = translated ++ waiting ∧
    (∀ entry ∈ translated, entry.isTranslated = true) ∧
      ∀ entry ∈ waiting, entry.isTranslated = false

namespace StashOrdered

variable {stash : List TagLookup}

theorem takeWhile_append {translated waiting : List TagLookup}
    (done : ∀ entry ∈ translated, entry.isTranslated = true)
    (waits : ∀ entry ∈ waiting, entry.isTranslated = false) :
    (translated ++ waiting).takeWhile (fun entry => entry.isTranslated) = translated ∧
      (translated ++ waiting).dropWhile (fun entry => entry.isTranslated) = waiting := by
  have stops : waiting.takeWhile (fun entry => entry.isTranslated) = [] ∧
      waiting.dropWhile (fun entry => entry.isTranslated) = waiting := by
    cases waiting with
    | nil => exact ⟨rfl, rfl⟩
    | cons entry rest =>
        have untranslated : ¬entry.isTranslated = true := by
          rw [waits entry List.mem_cons_self]
          decide
        exact ⟨List.takeWhile_cons_of_neg untranslated, List.dropWhile_cons_of_neg untranslated⟩
  rw [List.takeWhile_append_of_pos done, List.dropWhile_append_of_pos done, stops.1, stops.2]
  exact ⟨List.append_nil _, rfl⟩

theorem drop (ordered : StashOrdered stash) (count : Nat) : StashOrdered (stash.drop count) := by
  obtain ⟨translated, waiting, same, done, waits⟩ := ordered
  refine ⟨translated.drop count, waiting.drop (count - translated.length), ?_, ?_, ?_⟩
  · rw [same, List.drop_append]
  · intro entry member
    exact done entry (List.mem_of_mem_drop member)
  · intro entry member
    exact waits entry (List.mem_of_mem_drop member)

theorem append (ordered : StashOrdered stash) {late : List TagLookup}
    (waits : ∀ entry ∈ late, entry.isTranslated = false) : StashOrdered (stash ++ late) := by
  obtain ⟨translated, waiting, same, done, earlier⟩ := ordered
  refine ⟨translated, waiting ++ late, ?_, done, ?_⟩
  · rw [same, List.append_assoc]
  · intro entry member
    rcases List.mem_append.mp member with before | added
    · exact earlier entry before
    · exact waits entry added

theorem marks_of_map {entries other : List TagLookup} {value : Bool}
    (same : other.map (fun entry => entry.isTranslated) =
      entries.map (fun entry => entry.isTranslated))
    (marks : ∀ entry ∈ entries, entry.isTranslated = value) :
    ∀ entry ∈ other, entry.isTranslated = value := by
  apply List.forall_mem_map (P := fun mark => mark = value).mp
  rw [same]
  exact List.forall_mem_map (P := fun mark => mark = value).mpr marks

theorem of_map {other : List TagLookup} (ordered : StashOrdered stash)
    (same : other.map (fun entry => entry.isTranslated) =
      stash.map (fun entry => entry.isTranslated)) : StashOrdered other := by
  obtain ⟨translated, waiting, split, done, waits⟩ := ordered
  rw [split, List.map_append] at same
  obtain ⟨front, back, whole, fronts, backs⟩ := List.map_eq_append_iff.mp same
  exact ⟨front, back, whole, marks_of_map fronts done, marks_of_map backs waits⟩

end StashOrdered

/-! ### Answers of the level that translates -/

def TagLookup.pageNumber (config : OperateConfig) (entry : TagLookup) : BitVec 64 :=
  entry.vAddress.sliceUpper config.log2PageSize

inductive Answered (config : OperateConfig) (packet : Response) (entry : TagLookup) :
    TagLookup → Prop
  | translated (samePage : entry.pageNumber config = packet.vAddress.sliceUpper config.log2PageSize)
      (waited : entry.isTranslated = false) :
      Answered config packet entry
        { entry with
          address := Address.splice packet.data entry.vAddress config.log2PageSize
          isTranslated := true }
  | spared (other : entry.pageNumber config ≠ packet.vAddress.sliceUpper config.log2PageSize ∨
      entry.isTranslated = true) : Answered config packet entry entry

/-- The same entries in another order, but those of one page in their order. -/
structure Rearranged (config : OperateConfig) (before after : List TagLookup) : Prop where
  perm : after.Perm before
  pages : ∀ page, after.filter (fun entry => decide (entry.pageNumber config = page)) =
    before.filter (fun entry => decide (entry.pageNumber config = page))

theorem matchesVpage_iff (config : OperateConfig) (packet : Response) (entry : TagLookup) :
    Pipeline.matchesVpage config packet entry = true ↔
      entry.pageNumber config = packet.vAddress.sliceUpper config.log2PageSize ∧
        entry.isTranslated = false := by
  unfold Pipeline.matchesVpage TagLookup.pageNumber
  rw [Bool.and_eq_true, decide_eq_true_iff, Bool.not_eq_true']

theorem answered_matching {config : OperateConfig} {packet : Response} {entry : TagLookup}
    (found : Pipeline.matchesVpage config packet entry = true) :
    Answered config packet entry (Pipeline.markTranslated config packet entry) := by
  obtain ⟨samePage, waited⟩ := (matchesVpage_iff config packet entry).mp found
  exact .translated samePage waited

theorem answered_other {config : OperateConfig} {packet : Response} {entry : TagLookup}
    (other : ¬Pipeline.matchesVpage config packet entry = true) :
    Answered config packet entry entry := by
  rw [matchesVpage_iff, not_and, Bool.not_eq_false] at other
  by_cases samePage : entry.pageNumber config = packet.vAddress.sliceUpper config.log2PageSize
  · exact .spared (Or.inr (other samePage))
  · exact .spared (Or.inl samePage)

/-- The stable partition of untranslated entries keeps the order within a page. -/
theorem rearranged_partition (config : OperateConfig) (packet : Response)
    {waiting : List TagLookup} (waits : ∀ entry ∈ waiting, entry.isTranslated = false) :
    Rearranged config waiting (waiting.filter (Pipeline.matchesVpage config packet) ++
      waiting.filter (fun entry => !Pipeline.matchesVpage config packet entry)) := by
  refine ⟨List.filter_append_perm _ _, ?_⟩
  intro page
  rw [List.filter_append]
  by_cases answered : page = packet.vAddress.sliceUpper config.log2PageSize
  · apply Queue.filter_split _ _ true
    intro entry member onPage
    have samePage := (of_decide_eq_true onPage).trans answered
    exact (matchesVpage_iff config packet entry).mpr ⟨samePage, waits entry member⟩
  · apply Queue.filter_split _ _ false
    intro entry _member onPage
    apply Bool.not_eq_true _ |>.mp
    intro found
    have samePage := ((matchesVpage_iff config packet entry).mp found).1
    exact answered ((of_decide_eq_true onPage).symm.trans samePage)

theorem Rearranged.append_left {config : OperateConfig} {before after : List TagLookup}
    (rearranged : Rearranged config before after) (front : List TagLookup) :
    Rearranged config (front ++ before) (front ++ after) := by
  refine ⟨rearranged.perm.append_left front, ?_⟩
  intro page
  rw [List.filter_append, List.filter_append, rearranged.pages page]

namespace Pipeline

variable {config : OperateConfig} {Module : Type}

structure FinishesTranslation (packet : Response) (before after : Pipeline config Module) :
    Prop where
  stash : ∃ moved, Rearranged config before.translationStash moved ∧
    List.Forall₂ (Answered config packet) moved after.translationStash
  checks : List.Forall₂ (Answered config packet) before.inflightTagCheck after.inflightTagCheck
  others : after = { before with
    translationStash := after.translationStash
    inflightTagCheck := after.inflightTagCheck }
  ordered : StashOrdered after.translationStash

theorem finishTranslation_finishes (pipeline : Pipeline config Module) (packet : Response)
    (ordered : StashOrdered pipeline.translationStash) :
    FinishesTranslation packet pipeline (pipeline.finishTranslation packet) := by
  obtain ⟨translated, waiting, whole, done, waits⟩ := ordered
  obtain ⟨front, back⟩ := StashOrdered.takeWhile_append done waits
  have stash : (pipeline.finishTranslation packet).translationStash = translated ++
      ((waiting.filter (matchesVpage config packet)).map (markTranslated config packet) ++
        waiting.filter (fun entry => !matchesVpage config packet entry)) := by
    unfold finishTranslation
    dsimp only
    rw [whole, front, back, List.append_assoc]
  refine ⟨?_, ?_, rfl, ?_⟩
  · refine ⟨translated ++ (waiting.filter (matchesVpage config packet) ++
      waiting.filter (fun entry => !matchesVpage config packet entry)), ?_, ?_⟩
    · rw [whole]
      exact (rearranged_partition config packet waits).append_left translated
    · rw [stash]
      apply List.rel_append
      · exact List.forall₂_same.mpr (fun entry member => .spared (Or.inr (done entry member)))
      · apply List.rel_append
        · exact List.forall₂_map_right_iff.mpr (List.forall₂_same.mpr (fun entry member =>
            answered_matching (List.mem_filter.mp member).2))
        · apply List.forall₂_same.mpr
          intro entry member
          apply answered_other
          rw [Bool.not_eq_true, ← Bool.not_eq_true']
          exact (List.mem_filter.mp member).2
  · apply List.forall₂_map_right_iff.mpr
    apply List.forall₂_same.mpr
    intro entry _member
    by_cases found : matchesVpage config packet entry = true
    · rw [if_pos found]
      exact answered_matching found
    · rw [if_neg found]
      exact answered_other found
  · rw [stash, ← List.append_assoc]
    refine ⟨_, _, rfl, ?_, ?_⟩
    · intro entry member
      rcases List.mem_append.mp member with before | marked
      · exact done entry before
      · obtain ⟨other, -, same⟩ := List.mem_map.mp marked
        rw [← same]
        rfl
    · intro entry member
      exact waits entry (List.mem_filter.mp member).1

theorem finishEach_ordered (packets : List Response) {pipeline : Pipeline config Module}
    (ordered : StashOrdered pipeline.translationStash) :
    StashOrdered (packets.foldl finishTranslation pipeline).translationStash := by
  induction packets generalizing pipeline with
  | nil => exact ordered
  | cons packet rest ih => exact ih (pipeline.finishTranslation_finishes packet ordered).ordered

theorem finishTranslations_ordered {pipeline : Pipeline config Module}
    (ordered : StashOrdered pipeline.translationStash) :
    StashOrdered pipeline.finishTranslations.translationStash := by
  unfold finishTranslations
  split
  · exact ordered
  · next channel _present => exact finishEach_ordered channel.returned ordered

/-! ### Entries that come and go -/

theorem initiateTagChecks_ordered {pipeline : Pipeline config Module}
    (ordered : StashOrdered pipeline.translationStash) :
    StashOrdered pipeline.initiateTagChecks.pipeline.translationStash := by
  rw [pipeline.initiateTagChecks_lookups.2]
  exact ordered.drop _

theorem issueTranslations_ordered {pipeline next : Pipeline config Module}
    (ordered : StashOrdered pipeline.translationStash)
    (issued : pipeline.issueTranslations = some next) : StashOrdered next.translationStash :=
  ordered.of_map (issueTranslations_view (fun entry => entry.isTranslated) (fun _ _ => rfl)
    issued).2

/-- `stashUntranslated` with the loop of the source. -/
def extractUntranslated (pipeline : Pipeline config Module) : Option (Pipeline config Module) :=
  (Extract.extractIf (fun entry => isReady pipeline.currentTime entry && !entry.isTranslated)
    pipeline.inflightTagCheck pipeline.translationStash).map fun (slots, lastNotMissed, stash) =>
      { pipeline with
        translationStash := stash
        inflightTagCheck := (slots.take lastNotMissed).filterMap id }

theorem extractUntranslated_eq (pipeline : Pipeline config Module) :
    pipeline.extractUntranslated = some pipeline.stashUntranslated := by
  obtain ⟨slots, extracted, stay⟩ := Extract.extractIf_eq
    (fun entry => isReady pipeline.currentTime entry && !entry.isTranslated)
    pipeline.inflightTagCheck pipeline.translationStash
  unfold extractUntranslated
  rw [extracted, Option.map_some]
  dsimp only
  rw [stay, List.filterMap_map, Function.id_comp, List.filterMap_some]
  rfl

/-- What moving the late untranslated entries to the stash does. -/
structure Extracts (before after : Pipeline config Module) : Prop where
  moved : ∃ late, after.translationStash = before.translationStash ++ late ∧
    (late ++ after.inflightTagCheck).Perm before.inflightTagCheck ∧
      late.Sublist before.inflightTagCheck
  stay : after.inflightTagCheck.Sublist before.inflightTagCheck
  others : after = { before with
    translationStash := after.translationStash
    inflightTagCheck := after.inflightTagCheck }
  ordered : StashOrdered after.translationStash

theorem stashUntranslated_extracts {pipeline : Pipeline config Module}
    (ordered : StashOrdered pipeline.translationStash) :
    Extracts pipeline pipeline.stashUntranslated := by
  refine ⟨⟨_, rfl, List.filter_append_perm _ _, List.filter_sublist⟩, List.filter_sublist, rfl, ?_⟩
  apply ordered.append
  intro entry member
  exact Bool.not_eq_true' _ |>.mp (Bool.and_eq_true_iff.mp (List.mem_filter.mp member).2).2

/-! ### Runs -/

theorem serveReturns_ordered {hooks : CycleModules Module} {pipeline served : Pipeline config Module}
    (ordered : StashOrdered pipeline.translationStash)
    (ran : pipeline.serveReturns hooks = some served) : StashOrdered served.translationStash := by
  obtain ⟨returned, finishes, fills⟩ := Option.bind_eq_some_iff.mp ran
  rw [performFills_shape hooks.toModules _ served fills]
  apply finishTranslations_ordered
  rw [returnPackets_shape pipeline returned finishes]
  exact ordered

theorem operate_ordered {hooks : CycleModules Module} {pipeline next : Pipeline config Module}
    (ordered : StashOrdered pipeline.translationStash) (ran : operate hooks pipeline = some next) :
    StashOrdered next.translationStash := by
  obtain ⟨served, serves, checks⟩ := Option.bind_eq_some_iff.mp ran
  obtain ⟨issued, issues, done⟩ := Option.map_eq_some_iff.mp checks
  have initiated := initiateTagChecks_ordered (serveReturns_ordered ordered serves)
  have stashed := stashUntranslated_extracts (issueTranslations_ordered initiated issues)
  rw [← done]
  exact stashed.ordered

def ticked (pipeline : Pipeline config Module) : Pipeline config Module :=
  { pipeline with currentTime := pipeline.currentTime + config.clockPeriod }

/-- What holds of the stash of a state and of the cycle that begins in it:
before it and in it after each answer and after the late entries are moved. -/
structure StashKept (hooks : CycleModules Module) (pipeline : Pipeline config Module) : Prop where
  ordered : StashOrdered pipeline.translationStash
  answers : ∀ returned channel earlier packet later,
    pipeline.ticked.checkCollisions.finishPackets = some returned →
    returned.lowerTranslate = some channel → channel.returned = earlier ++ packet :: later →
    FinishesTranslation packet (earlier.foldl finishTranslation returned)
      ((earlier ++ [packet]).foldl finishTranslation returned)
  extracts : ∀ served issued, pipeline.ticked.serveReturns hooks = some served →
    served.initiateTagChecks.pipeline.issueTranslations = some issued →
    ∃ next, issued.extractUntranslated = some next ∧ Extracts issued next

theorem StashKept.of_ordered {hooks : CycleModules Module} {pipeline : Pipeline config Module}
    (ordered : StashOrdered pipeline.translationStash) : pipeline.StashKept hooks := by
  refine ⟨ordered, ?_, ?_⟩
  · intro returned channel earlier packet later finishes _present _answers
    have begun : StashOrdered returned.translationStash := by
      rw [returnPackets_shape pipeline.ticked returned finishes]
      exact ordered
    rw [List.foldl_append]
    exact finishTranslation_finishes _ packet (finishEach_ordered earlier begun)
  · intro served issued serves issues
    have initiated := initiateTagChecks_ordered (serveReturns_ordered
      (show StashOrdered pipeline.ticked.translationStash from ordered) serves)
    exact ⟨issued.stashUntranslated, issued.extractUntranslated_eq,
      stashUntranslated_extracts (issueTranslations_ordered initiated issues)⟩

theorem step_ordered {hooks : CycleModules Module} {pipeline next : Pipeline config Module}
    {label : Step Module} (ordered : StashOrdered pipeline.translationStash)
    (stepped : pipeline.step hooks label = some next) : StashOrdered next.translationStash := by
  by_cases cycled : label = .operate
  · subst cycled
    refine operate_ordered ?_ stepped
    exact ordered
  · rw [(step_lookups hooks pipeline next label cycled stepped).2]
    exact ordered

theorem cycles_stashKept (hooks : CycleModules Module) (start : Pipeline config Module)
    (idle : Idle start) (labels : List (Step Module)) (finish : Pipeline config Module)
    (ran : (cycles hooks).run start labels = some finish) : finish.StashKept hooks := by
  apply StashKept.of_ordered
  apply (cycles hooks).run_invariant (fun pipeline => StashOrdered pipeline.translationStash) ?_
    labels start finish ?_ ran
  · intro pipeline label next ordered stepped
    exact step_ordered ordered stepped
  · refine ⟨[], [], idle.translationStash, ?_, ?_⟩
    · intro entry member
      cases member
    · intro entry member
      cases member

end Pipeline

/-! ### A cache that translates -/

def translatingCache : Pipeline twoWays Unit :=
  { idleCache with lowerTranslate := some { rqSize := 4, pqSize := 4, wqSize := 4 } }

/-- Two loads of different pages are looked up before they are translated, and the second one
is answered. -/
def untranslatedLoads : List (Step Unit) :=
  [.upperLevels (requestsAbove [
      { address := 0x1040, vAddress := 0x1040, isTranslated := false },
      { address := 0x2040, vAddress := 0x2040, isTranslated := false }] []),
    .operate, .operate,
    .translations { rqSize := 4, pqSize := 4, wqSize := 4,
                    returned := [{ address := 0x2040, vAddress := 0x2040, data := 0x5000 }] }]

private theorem untranslatedLoads_run :
    ((cycles silentCycle).run translatingCache untranslatedLoads).map (fun finish =>
      (finish.translationStash.map (fun entry => (entry.vAddress, entry.isTranslated)),
        finish.lowerTranslate.map (fun channel => channel.returned))) =
      some ([(0x1040, false), (0x2040, false)],
        some [{ address := 0x2040, vAddress := 0x2040, data := 0x5000 }]) := by
  decide +kernel

theorem cycles_stashKept_untranslatedLoads :
    ∃ finish, (cycles silentCycle).run translatingCache untranslatedLoads = some finish ∧
      finish.translationStash.map (fun entry => (entry.vAddress, entry.isTranslated)) =
        [(0x1040, false), (0x2040, false)] ∧
      finish.lowerTranslate.map (fun channel => channel.returned) =
        some [{ address := 0x2040, vAddress := 0x2040, data := 0x5000 }] ∧
      finish.StashKept silentCycle := by
  obtain ⟨finish, ran, same⟩ := Option.map_eq_some_iff.mp untranslatedLoads_run
  obtain ⟨waiting, answered⟩ := Prod.mk.inj same
  exact ⟨finish, ran, waiting, answered, Pipeline.cycles_stashKept silentCycle translatingCache
    ⟨rfl, rfl, rfl, rfl, rfl, rfl, rfl⟩ untranslatedLoads finish ran⟩

end ChampSim.Cache

/-
How often the prefetcher's hook is called for a request.

Each stage of a cycle moves the numbered packets as it moves the packets
themselves. A packet is asked about once in each cycle in which its tag is
checked, and it leaves with the check unless its miss is refused.
-/

import ChampSim.Cache.CheckNotes
import ChampSim.Cache.Ledger

set_option autoImplicit false

namespace ChampSim.Cache

namespace CheckNotes

variable {config : OperateConfig} {Module : Type}

/-! ### What the notes keep -/

/-- The number of a packet, and whether it activates the prefetcher. -/
def key (config : OperateConfig) (numbered : TagLookup × Nat) : Nat × Bool :=
  (numbered.2, config.shouldActivatePrefetcher numbered.1)

def keys (config : OperateConfig) (notes : CheckNotes) : List (Nat × Bool) :=
  (notes.pending ++ notes.stashed).map (key config)

/-- The request with this number activates the prefetcher. -/
def active (config : OperateConfig) (accepted : List TagLookup) (number : Nat) : Bool :=
  accepted[number]?.any config.shouldActivatePrefetcher

def tally (notes : CheckNotes) : Tally where
  issued := notes.accepted.length
  held := (notes.pending ++ notes.stashed).map Prod.snd
  asked := notes.calls
  refused := notes.refusals

structure Tallied (config : OperateConfig) (notes : CheckNotes) : Prop where
  balanced : Tally.Balanced (active config notes.accepted) notes.tally
  known : ∀ entry ∈ notes.keys config, active config notes.accepted entry.1 = entry.2

structure Follows (notes : CheckNotes) (pipeline : Pipeline config Module) : Prop where
  pending : notes.pending.map Prod.fst = pipeline.inflightTagCheck
  stashed : notes.stashed.map Prod.fst = pipeline.translationStash

structure Carries (config : OperateConfig) (before after : CheckNotes) : Prop where
  accepted : after.accepted = before.accepted
  calls : after.calls = before.calls
  refusals : after.refusals = before.refusals
  keys : (after.keys config).Perm (before.keys config)

theorem keys_eq (notes : CheckNotes) :
    notes.keys config = notes.pending.map (key config) ++ notes.stashed.map (key config) :=
  List.map_append

theorem keys_numbers (notes : CheckNotes) :
    (notes.keys config).map Prod.fst = (notes.pending ++ notes.stashed).map Prod.snd := by
  unfold keys
  rw [List.map_map]
  rfl

theorem Tallied.carry {before after : CheckNotes} (tallied : Tallied config before)
    (carries : Carries config before after) : Tallied config after := by
  have held : ((after.pending ++ after.stashed).map Prod.snd).Perm
      ((before.pending ++ before.stashed).map Prod.snd) := by
    have numbers := carries.keys.map Prod.fst
    rw [keys_numbers, keys_numbers] at numbers
    exact numbers
  have reordered := tallied.balanced.reorder held
  constructor
  · unfold tally at reordered ⊢
    rw [carries.accepted, carries.calls, carries.refusals]
    exact reordered
  · intro entry member
    rw [carries.accepted]
    exact tallied.known entry (carries.keys.mem_iff.mp member)

theorem Carries.trans {first second third : CheckNotes} (before : Carries config first second)
    (after : Carries config second third) : Carries config first third :=
  ⟨after.accepted.trans before.accepted, after.calls.trans before.calls,
    after.refusals.trans before.refusals, after.keys.trans before.keys⟩

/-! ### Answers of the level that translates -/

theorem map_onEntry_key {change : TagLookup → TagLookup}
    (same : ∀ entry, config.shouldActivatePrefetcher (change entry) =
      config.shouldActivatePrefetcher entry) (packets : List (TagLookup × Nat)) :
    (packets.map (onEntry change)).map (key config) = packets.map (key config) := by
  rw [List.map_map]
  apply List.map_congr_left
  intro numbered _member
  unfold key onEntry
  dsimp only [Function.comp_apply]
  rw [same]

theorem stash_keys (packet : Response) (front waiting : List (TagLookup × Nat)) :
    ((front ++ (waiting.filter (fun numbered =>
        Pipeline.matchesVpage config packet numbered.1)).map
          (onEntry (Pipeline.markTranslated config packet)) ++
        waiting.filter (fun numbered => !Pipeline.matchesVpage config packet numbered.1)).map
          (key config)).Perm ((front ++ waiting).map (key config)) := by
  have marked : ∀ entry, config.shouldActivatePrefetcher
      (Pipeline.markTranslated config packet entry) = config.shouldActivatePrefetcher entry :=
    fun _ => rfl
  have parted := (List.filter_append_perm
    (fun numbered : TagLookup × Nat => Pipeline.matchesVpage config packet numbered.1)
    waiting).map (key config)
  rw [List.map_append] at parted
  rw [List.map_append, List.map_append, map_onEntry_key marked, List.append_assoc,
    List.map_append]
  exact parted.append_left _

theorem noteTranslation_carries (notes : CheckNotes) (packet : Response) :
    Carries config notes (notes.noteTranslation config packet) := by
  refine ⟨rfl, rfl, rfl, ?_⟩
  have either : ∀ entry, config.shouldActivatePrefetcher
      (if Pipeline.matchesVpage config packet entry then Pipeline.markTranslated config packet entry
      else entry) = config.shouldActivatePrefetcher entry := by
    intro entry
    split
    · rfl
    · rfl
  have stashed := @stash_keys config packet
    (notes.stashed.takeWhile (fun numbered => numbered.1.isTranslated))
    (notes.stashed.dropWhile (fun numbered => numbered.1.isTranslated))
  rw [List.takeWhile_append_dropWhile] at stashed
  have pending : (notes.noteTranslation config packet).pending.map (key config) =
      notes.pending.map (key config) := map_onEntry_key either notes.pending
  rw [keys_eq, keys_eq, pending]
  exact stashed.append_left _

theorem Follows.noteTranslation {notes : CheckNotes} {pipeline : Pipeline config Module}
    (follows : notes.Follows pipeline) (packet : Response) :
    (notes.noteTranslation config packet).Follows (pipeline.finishTranslation packet) := by
  obtain ⟨pending, stashed⟩ := follows
  constructor
  · unfold CheckNotes.noteTranslation Pipeline.finishTranslation
    dsimp only
    rw [← pending, List.map_map, List.map_map]
    rfl
  · unfold CheckNotes.noteTranslation Pipeline.finishTranslation
    dsimp only
    rw [← stashed, List.takeWhile_map, List.dropWhile_map, List.filter_map, List.filter_map,
      List.map_append, List.map_append, List.map_map, List.map_map]
    rfl

theorem noteTranslations_spec {notes : CheckNotes} {returned : Pipeline config Module}
    (follows : notes.Follows returned) :
    Carries config notes (notes.noteTranslations returned) ∧
      (notes.noteTranslations returned).Follows returned.finishTranslations := by
  unfold noteTranslations Pipeline.finishTranslations
  cases returned.lowerTranslate with
  | none => exact ⟨⟨rfl, rfl, rfl, List.Perm.refl _⟩, follows⟩
  | some channel =>
      dsimp only
      have each : ∀ (packets : List Response) (current : Pipeline config Module)
          (noted : CheckNotes), noted.Follows current →
          Carries config noted (packets.foldl (noteTranslation config) noted) ∧
            (packets.foldl (noteTranslation config) noted).Follows
              (packets.foldl Pipeline.finishTranslation current) := by
        intro packets
        induction packets with
        | nil =>
            intro current noted holds
            exact ⟨⟨rfl, rfl, rfl, List.Perm.refl _⟩, holds⟩
        | cons packet rest ih =>
            intro current noted holds
            obtain ⟨carries, done⟩ := ih _ _ (holds.noteTranslation packet)
            exact ⟨(noteTranslation_carries noted packet).trans carries, done⟩
      obtain ⟨carries, done⟩ := each channel.returned returned notes follows
      exact ⟨carries, done.pending, done.stashed⟩

/-! ### Requests that join -/

theorem active_append (config : OperateConfig) (accepted added : List TagLookup) {number : Nat}
    (old : number < accepted.length) :
    active config (accepted ++ added) number = active config accepted number := by
  unfold active
  rw [List.getElem?_append_left old]

theorem Tallied.accept {notes : CheckNotes} (tallied : Tallied config notes)
    (added : List TagLookup) :
    Tallied config { notes with
      accepted := notes.accepted ++ added
      pending := notes.pending ++ added.zipIdx notes.accepted.length } := by
  have issued := tallied.balanced.issue added.length
    (fun number old => active_append config notes.accepted added old)
  have numbers : (added.zipIdx notes.accepted.length).map Prod.snd =
      List.range' notes.accepted.length added.length := List.zipIdx_map_snd _ _
  have held : (((notes.pending ++ added.zipIdx notes.accepted.length) ++ notes.stashed).map
      Prod.snd).Perm ((notes.pending ++ notes.stashed).map Prod.snd ++
        List.range' notes.accepted.length added.length) := by
    rw [← numbers, ← List.map_append, List.append_assoc, List.append_assoc]
    exact (List.perm_append_comm.append_left notes.pending).map Prod.snd
  have reordered := issued.reorder held
  constructor
  · unfold tally at reordered ⊢
    dsimp only at reordered ⊢
    rw [List.length_append]
    exact reordered
  · intro entry member
    obtain ⟨numbered, found, same⟩ := List.mem_map.mp member
    rw [List.mem_append, List.mem_append, or_right_comm, ← List.mem_append] at found
    subst same
    rcases found with before | new
    · have known := tallied.known (key config numbered) (List.mem_map_of_mem before)
      have old : numbered.2 < notes.accepted.length :=
        tallied.balanced.bounded numbered.2 (List.mem_map_of_mem before)
      exact (active_append config notes.accepted added old).trans known
    · obtain ⟨above, here⟩ := List.mk_mem_zipIdx_iff_le_and_getElem?_sub.mp new
      change active config (notes.accepted ++ added) numbered.2 =
        config.shouldActivatePrefetcher numbered.1
      unfold active
      rw [List.getElem?_append_right above, here]
      rfl

theorem noteIntake_spec {notes : CheckNotes} {served : Pipeline config Module}
    (follows : notes.Follows served) (tallied : Tallied config notes) :
    Tallied config (notes.noteIntake served) ∧
      (notes.noteIntake served).Follows served.initiateTagChecks.pipeline := by
  have whole := Queue.span_append_beyond served.initiateBandwidth
    (fun numbered : TagLookup × Nat => numbered.1.isTranslated) notes.stashed
  have started : ∀ entry, config.shouldActivatePrefetcher (served.initiateTagCheck entry) =
      config.shouldActivatePrefetcher entry := fun _ => rfl
  have checks : (notes.pending ++ (Queue.span served.initiateBandwidth
      (fun numbered : TagLookup × Nat => numbered.1.isTranslated) notes.stashed).map
        (onEntry served.initiateTagCheck)).map Prod.fst =
      served.restartStash.pipeline.inflightTagCheck := by
    unfold Pipeline.restartStash
    dsimp only
    rw [List.map_append, follows.pending, List.map_map, ← follows.stashed, Queue.span_map,
      List.map_map]
    rfl
  have waiting : (Queue.beyond served.initiateBandwidth
      (fun numbered : TagLookup × Nat => numbered.1.isTranslated) notes.stashed).map Prod.fst =
      served.restartStash.pipeline.translationStash := by
    unfold Pipeline.restartStash
    dsimp only
    rw [← follows.stashed, Queue.beyond_map]
  have carries : Carries config notes { notes with
      pending := notes.pending ++ (Queue.span served.initiateBandwidth
        (fun numbered : TagLookup × Nat => numbered.1.isTranslated) notes.stashed).map
          (onEntry served.initiateTagCheck)
      stashed := Queue.beyond served.initiateBandwidth
        (fun numbered : TagLookup × Nat => numbered.1.isTranslated) notes.stashed } := by
    refine ⟨rfl, rfl, rfl, ?_⟩
    rw [keys_eq, keys_eq, List.map_append, map_onEntry_key started, List.append_assoc,
      ← List.map_append, whole]
  obtain ⟨joined, stash⟩ := served.initiateTagChecks_lookups
  refine ⟨(tallied.carry carries).accept _, ?_, ?_⟩
  · unfold noteIntake
    dsimp only
    rw [List.map_append, List.zipIdx_map_fst, checks, ← List.length_map (f := Prod.fst), checks]
    exact List.prefix_iff_eq_append.mp joined
  · exact waiting.trans stash.symm

/-! ### Translations and the stash -/

theorem zip_spec {packets : List (TagLookup × Nat)} {issued : List TagLookup}
    (marked : List.Forall₂ (fun entry next => ∃ translateIssued,
      next = { entry with translateIssued }) (packets.map Prod.fst) issued) :
    (issued.zip (packets.map Prod.snd)).map Prod.fst = issued ∧
      (issued.zip (packets.map Prod.snd)).map (key config) = packets.map (key config) := by
  induction packets generalizing issued with
  | nil =>
      cases marked
      exact ⟨rfl, rfl⟩
  | cons numbered rest ih =>
      cases marked with
      | cons first others =>
          obtain ⟨translateIssued, same⟩ := first
          obtain ⟨entries, keyed⟩ := ih others
          subst same
          exact ⟨congrArg (_ :: ·) entries, congrArg (_ :: ·) keyed⟩

theorem noteIssue_spec {notes : CheckNotes} {taken issued : Pipeline config Module}
    (follows : notes.Follows taken) (issues : taken.issueTranslations = some issued) :
    Carries config notes (notes.noteIssue issued) ∧ (notes.noteIssue issued).Follows issued := by
  obtain ⟨⟨checks, channel⟩, first, others⟩ := Option.bind_eq_some_iff.mp issues
  obtain ⟨⟨stash, last⟩, second, same⟩ := Option.map_eq_some_iff.mp others
  rw [← follows.pending] at first
  rw [← follows.stashed] at second
  obtain ⟨pendingEntries, pendingKeys⟩ := @zip_spec config _ _
    (Pipeline.issueEach_entries _ _ _ _ first)
  obtain ⟨stashedEntries, stashedKeys⟩ := @zip_spec config _ _
    (Pipeline.issueEach_entries _ _ _ _ second)
  subst same
  refine ⟨⟨rfl, rfl, rfl, ?_⟩, pendingEntries, stashedEntries⟩
  rw [keys_eq, keys_eq]
  exact List.Perm.of_eq (congrArg₂ (· ++ ·) pendingKeys stashedKeys)

theorem noteStash_spec {notes : CheckNotes} {issued : Pipeline config Module}
    (follows : notes.Follows issued) :
    Carries config notes (notes.noteStash issued) ∧
      (notes.noteStash issued).Follows issued.stashUntranslated := by
  refine ⟨⟨rfl, rfl, rfl, ?_⟩, ?_, ?_⟩
  · have parted := (List.filter_append_perm (fun numbered : TagLookup × Nat =>
      Pipeline.isReady issued.currentTime numbered.1 && !numbered.1.isTranslated) notes.pending)
    unfold keys noteStash
    dsimp only
    refine List.Perm.map _ ?_
    refine (List.perm_append_comm.append_left _).trans ?_
    rw [← List.append_assoc]
    exact (List.perm_append_comm.trans parted).append_right _
  · unfold noteStash Pipeline.stashUntranslated
    dsimp only
    rw [← follows.pending, List.filter_map]
    rfl
  · unfold noteStash Pipeline.stashUntranslated
    dsimp only
    rw [← follows.pending, ← follows.stashed, List.filter_map, List.map_append]
    rfl

/-! ### Tag checks -/

/-- The hook is called once for each packet that is checked and activates it. -/
theorem hookCalls_eq (hooks : Modules Module) (state : State config.toConfig Module)
    (checked : List (TagLookup × Nat)) :
    hookCalls hooks state checked = (checked.filter (fun numbered =>
      config.shouldActivatePrefetcher numbered.1)).map Prod.snd := by
  induction checked generalizing state with
  | nil => rfl
  | cons numbered rest ih =>
      rw [hookCalls, State.cacheOperateCalls_eq, ih]
      by_cases activates : config.shouldActivatePrefetcher numbered.1 = true
      · rw [if_pos activates, List.filter_cons, if_pos activates]
        rfl
      · rw [if_neg activates, List.filter_cons, if_neg activates]
        rfl

theorem noteChecks_follows (hooks : Modules Module) {notes : CheckNotes}
    {ready : Pipeline config Module} (follows : notes.Follows ready) :
    (notes.noteChecks hooks ready).Follows (ready.performTagChecks hooks) := by
  refine ⟨?_, follows.stashed⟩
  unfold noteChecks Pipeline.performTagChecks
  dsimp only
  rw [← follows.pending, Queue.span_map, Queue.partition_map, Queue.partition_map,
    Queue.beyond_map, List.map_append]

theorem Tallied.check {notes : CheckNotes} (tallied : Tallied config notes)
    {checked granted refused others : List (TagLookup × Nat)}
    (parts : checked ++ others = notes.pending) (answers : (granted ++ refused).Perm checked) :
    Tallied config { notes with
      pending := refused ++ others
      calls := notes.calls ++ (checked.filter (fun numbered =>
        config.shouldActivatePrefetcher numbered.1)).map Prod.snd
      refusals := notes.refusals ++ refused.map Prod.snd } := by
  have among : ∀ numbered ∈ refused ++ others ++ notes.stashed,
      numbered ∈ notes.pending ++ notes.stashed := by
    intro numbered member
    rw [← parts, List.append_assoc]
    rw [List.append_assoc] at member
    rcases List.mem_append.mp member with again | kept
    · exact List.mem_append_left _ (answers.mem_iff.mp (List.mem_append_right _ again))
    · exact List.mem_append_right _ kept
  have held : (notes.pending ++ notes.stashed).map Prod.snd =
      checked.map Prod.snd ++ (others ++ notes.stashed).map Prod.snd := by
    rw [← parts, List.append_assoc, List.map_append]
  have answered : (checked.map Prod.snd).Perm (granted.map Prod.snd ++ refused.map Prod.snd) := by
    rw [← List.map_append]
    exact (answers.map Prod.snd).symm
  have asked : (checked.map Prod.snd).filter (active config notes.accepted) =
      (checked.filter (fun numbered =>
        config.shouldActivatePrefetcher numbered.1)).map Prod.snd := by
    rw [List.filter_map]
    refine congrArg _ (List.filter_congr ?_)
    intro numbered member
    apply tallied.known (key config numbered)
    apply List.mem_map_of_mem
    rw [← parts]
    exact List.mem_append_left _ (List.mem_append_left _ member)
  have balanced := tallied.balanced.ask (List.Perm.of_eq held) answered
  constructor
  · unfold tally at balanced ⊢
    dsimp only at balanced ⊢
    rw [List.append_assoc, List.map_append, ← asked]
    exact balanced
  · intro entry member
    obtain ⟨numbered, found, same⟩ := List.mem_map.mp member
    rw [← same]
    exact tallied.known (key config numbered) (List.mem_map_of_mem (among numbered found))

theorem noteChecks_tallied (hooks : Modules Module) {notes : CheckNotes}
    (ready : Pipeline config Module) (tallied : Tallied config notes) :
    Tallied config (notes.noteChecks hooks ready) := by
  have whole := Queue.span_append_beyond config.maxTag (fun numbered : TagLookup × Nat =>
    Pipeline.isReady ready.currentTime numbered.1 && numbered.1.isTranslated) notes.pending
  unfold noteChecks
  dsimp only
  rw [hookCalls_eq]
  generalize Queue.span config.maxTag (fun numbered : TagLookup × Nat =>
    Pipeline.isReady ready.currentTime numbered.1 && numbered.1.isTranslated) notes.pending =
      checked at whole ⊢
  have hits := Queue.partition_perm
    (fun state (numbered : TagLookup × Nat) => State.tryHit hooks state numbered.1)
    ready.toState checked
  generalize Queue.partition (fun state (numbered : TagLookup × Nat) =>
    State.tryHit hooks state numbered.1) ready.toState checked = found at hits ⊢
  have misses := Queue.partition_perm
    (fun state (numbered : TagLookup × Nat) => State.doHandleMiss state numbered.1)
    found.2 found.1.2
  generalize Queue.partition (fun state (numbered : TagLookup × Nat) =>
    State.doHandleMiss state numbered.1) found.2 found.1.2 = missed at misses ⊢
  have answers := (misses.append_left found.1.1).trans hits
  rw [← List.append_assoc] at answers
  exact tallied.check whole answers

/-! ### Runs -/

theorem noteCycle_spec {hooks : CycleModules Module} {notes : CheckNotes}
    {begun next : Pipeline config Module} (follows : notes.Follows begun)
    (tallied : Tallied config notes) (ran : begun.operate hooks = some next) :
    Tallied config (notes.noteCycle hooks begun) ∧
      (notes.noteCycle hooks begun).Follows next := by
  obtain ⟨served, serves, checks⟩ := Option.bind_eq_some_iff.mp ran
  obtain ⟨returned, finishes, fills⟩ := Option.bind_eq_some_iff.mp serves
  obtain ⟨issued, issues, done⟩ := Option.map_eq_some_iff.mp checks
  have begins : notes.Follows returned := by
    rw [Pipeline.returnPackets_shape begun returned finishes]
    exact ⟨follows.pending, follows.stashed⟩
  obtain ⟨answered, translated⟩ := noteTranslations_spec begins
  have filled : (notes.noteTranslations returned).Follows served := by
    rw [Pipeline.performFills_shape hooks.toModules _ served fills]
    exact ⟨translated.pending, translated.stashed⟩
  obtain ⟨joined, taken⟩ := noteIntake_spec filled (tallied.carry answered)
  obtain ⟨marked, issuedToo⟩ := noteIssue_spec taken issues
  obtain ⟨moved, stashed⟩ := noteStash_spec issuedToo
  have checked := noteChecks_tallied hooks.toModules issued.stashUntranslated
    ((joined.carry marked).carry moved)
  have after := noteChecks_follows hooks.toModules stashed
  have noted : notes.noteCycle hooks begun =
      ((((notes.noteTranslations returned).noteIntake served).noteIssue issued).noteStash
        issued).noteChecks hooks.toModules issued.stashUntranslated := by
    unfold noteCycle
    rw [finishes, Option.bind_eq_bind, Option.bind_some, fills, Option.bind_some, issues]
    rfl
  rw [noted, ← done]
  exact ⟨checked, after.pending, after.stashed⟩

theorem note_spec {hooks : CycleModules Module} {notes : CheckNotes}
    {pipeline next : Pipeline config Module} {label : Step Module}
    (follows : notes.Follows pipeline) (tallied : Tallied config notes)
    (stepped : pipeline.step hooks label = some next) :
    Tallied config (notes.note hooks pipeline label) ∧
      (notes.note hooks pipeline label).Follows next := by
  by_cases cycled : label = .operate
  · subst cycled
    exact noteCycle_spec ⟨follows.pending, follows.stashed⟩ tallied stepped
  · have kept : notes.note hooks pipeline label = notes := by
      cases label with
      | operate => exact absurd rfl cycled
      | _ => rfl
    obtain ⟨checks, stash⟩ := Pipeline.step_lookups hooks pipeline next label cycled stepped
    rw [kept]
    exact ⟨tallied, follows.pending.trans checks.symm, follows.stashed.trans stash.symm⟩

/-- The request with this number is still looked up or stashed. -/
def Waits (notes : CheckNotes) (number : Nat) : Prop :=
  number ∈ (notes.pending ++ notes.stashed).map Prod.snd

instance (notes : CheckNotes) (number : Nat) : Decidable (notes.Waits number) :=
  inferInstanceAs (Decidable (_ ∈ _))

/-- A request that activates the prefetcher has its hook called once for each
refusal of its miss, and once more when its tag check leaves; others never, among
them all that `prefetch_line` has made. -/
structure CallsAreChecks (config : OperateConfig) (notes : CheckNotes) : Prop where
  calls : ∀ number request, notes.accepted[number]? = some request →
    notes.calls.count number =
      if config.shouldActivatePrefetcher request then
        notes.refusals.count number + (if notes.Waits number then 0 else 1)
      else 0
  own : ∀ number request, notes.accepted[number]? = some request →
    request.prefetchFromThis = true → notes.calls.count number = 0
  once : ∀ number, number ∉ notes.refusals → notes.calls.count number ≤ 1

theorem Tallied.callsAreChecks {notes : CheckNotes} (tallied : Tallied config notes) :
    CallsAreChecks config notes := by
  have balance := tallied.balanced.balance
  have calls : ∀ number request, notes.accepted[number]? = some request →
      notes.calls.count number =
        if config.shouldActivatePrefetcher request then
          notes.refusals.count number + (if notes.Waits number then 0 else 1)
        else 0 := by
    intro number request accepted
    have below := (List.getElem?_eq_some_iff.mp accepted).1
    have counted := balance number below
    unfold active at counted
    rw [accepted, Option.any_some] at counted
    exact counted
  refine ⟨calls, ?_, ?_⟩
  · intro number request accepted own
    have inactive : ¬config.shouldActivatePrefetcher request = true := by
      unfold Config.shouldActivatePrefetcher
      rw [own]
      exact Bool.false_ne_true
    rw [calls number request accepted, if_neg inactive]
  · intro number unrefused
    by_cases below : number < notes.accepted.length
    · have counted := balance number below
      have none : notes.refusals.count number = 0 := List.count_eq_zero_of_not_mem unrefused
      change notes.calls.count number = if active config notes.accepted number then
        notes.refusals.count number + _ else 0 at counted
      rw [counted, none]
      split
      · split
        · exact Nat.zero_le 1
        · exact Nat.le_refl 1
      · exact Nat.zero_le 1
    · have uncalled := (tallied.balanced.unissued number (Nat.not_lt.mp below)).1
      have none : notes.calls.count number = 0 := List.count_eq_zero_of_not_mem uncalled
      omega

theorem checkedCycles_calls (hooks : CycleModules Module) (start : Pipeline config Module)
    (idle : Idle start) (labels : List (Step Module)) (reached : Pipeline config Module × CheckNotes)
    (ran : (checkedCycles hooks).run (start, {}) labels = some reached) :
    reached.2.Follows reached.1 ∧ reached.1.Own ∧ CallsAreChecks config reached.2 := by
  have moved : (cycles hooks).run start labels = some reached.1 := by
    rw [← (cycles hooks).record_run (note hooks) labels start {}]
    exact Option.map_eq_some_iff.mpr ⟨reached, ran, rfl⟩
  obtain ⟨ledger, recorded⟩ :=
    (cycles hooks).exists_recorded_run (noteTaken hooks) labels start reached.1 {} moved
  have own := (Pipeline.ledgers_kept hooks start idle labels (reached.1, ledger) recorded).silent.own
  have kept := (checkedCycles hooks).run_invariant
    (fun noted => Tallied config noted.2 ∧ noted.2.Follows noted.1) (by
      intro noted label next holds stepped
      obtain ⟨moved, same⟩ := ((cycles hooks).record_step_iff (note hooks) noted next label).mp
        stepped
      rw [← same]
      exact note_spec holds.2 holds.1 moved) labels (start, {}) reached (by
      refine ⟨⟨Tally.balanced_empty _, ?_⟩, idle.inflightTagCheck.symm, idle.translationStash.symm⟩
      intro entry member
      cases member) ran
  exact ⟨kept.2, own, kept.1.callsAreChecks⟩

end CheckNotes

/-! ### A miss that is refused -/

/-- One miss may be in flight, and loads activate the prefetcher. -/
def oneMshr : OperateConfig := { twoWays with mshrSize := 1, prefActivateMask := [.load] }

def oneMissCache : Pipeline oneMshr Unit where
  upperLevels := requestsAbove [] []
  lowerLevel := { rqSize := 4, pqSize := 4, wqSize := 4 }
  modules := ()
  upperOrder := [0]

/-- Loads of two blocks; the miss of the second is refused as long as the first is in flight. -/
def loadTwoBlocks : List (Step Unit) :=
  [.upperLevels (requestsAbove [{ address := 0x40 }, { address := 0x80 }] []), .operate, .operate,
    .operate]

private theorem loadTwoBlocks_calls :
    ((checkedCycles silentCycle).run (oneMissCache, {}) loadTwoBlocks).any (fun reached =>
      decide (reached.2.calls.count 1 = 2)) = true := by
  decide +kernel

theorem checkedCycles_calls_loadTwoBlocks :
    ∃ reached, (checkedCycles silentCycle).run (oneMissCache, {}) loadTwoBlocks = some reached ∧
      reached.2.Follows reached.1 ∧ reached.1.Own ∧
        CheckNotes.CallsAreChecks oneMshr reached.2 := by
  obtain ⟨reached, ran, -⟩ := (Option.any_eq_true _ _).mp loadTwoBlocks_calls
  exact ⟨reached, ran, CheckNotes.checkedCycles_calls silentCycle oneMissCache
    ⟨rfl, rfl, rfl, rfl, rfl, rfl, rfl⟩ loadTwoBlocks reached ran⟩

/-- The hook is called for the second load in each cycle in which its miss is refused. -/
theorem loadTwoBlocks_calledTwice :
    ¬∀ labels reached, (checkedCycles silentCycle).run (oneMissCache, {}) labels = some reached →
      ∀ number, reached.2.calls.count number ≤ 1 := by
  intro once
  obtain ⟨reached, ran, twice⟩ := (Option.any_eq_true _ _).mp loadTwoBlocks_calls
  have most := once loadTwoBlocks reached ran 1
  have calls := of_decide_eq_true twice
  omega

end ChampSim.Cache

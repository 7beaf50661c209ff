/-
Runs of a walker. Between its operations the channels change as the caches and
the lower level like, and other users of the memory translate pages.

Each accepted request has one walk, which is waiting, finished, completed or
answered. What an operation answers, it sends to the upper level of the request.
-/

import ChampSim.Library.Transition
import ChampSim.Ptw.WalkStages

set_option autoImplicit false

namespace ChampSim.Ptw

open Cache (Request Response Channel Waitable)
open Msl (LruTable)
open Outcome (Ends ends_anything)
open Transition (Machine)
open Vmem (Paging VirtualMemory)

inductive Step (paging : Paging) where
  | operate
  | channels (upperLevels : List Channel) (lowerLevel : Channel)
  | translate (call : Vmem.Call paging)
  | warmup (value : Bool)
deriving DecidableEq

namespace PageTableWalker

def machine (config : PtwConfig) : Machine (PageTableWalker config) (Step config.paging) where
  step walker
    | .operate => walker.operate.toOption
    | .channels upperLevels lowerLevel =>
        if upperLevels.length = walker.upperLevels.length then
          some { walker with upperLevels, lowerLevel }
        else none
    | .translate call =>
        ((VirtualMemory.machine config.paging).step walker.vmem call).map
          (fun vmem => { walker with vmem })
    | .warmup value => some { walker with warmup := value }

variable {config : PtwConfig} {walker next last : PageTableWalker config}

/-! ### What is sent -/

def Sent (before after : List Channel) (answers : List (Nat × Response)) : Prop :=
  ∀ index : Nat, after[index]?.map Channel.returned = before[index]?.map (fun channel =>
    channel.returned ++ (answers.filter (fun sent => decide (sent.1 = index))).map Prod.snd)

theorem sent_foldl (answers : List (Nat × Response)) (uppers : List Channel) :
    Sent uppers (answers.foldl
      (fun uppers sent => uppers.modify sent.1 (fun channel => channel.pushReturned sent.2))
      uppers) answers := by
  induction answers generalizing uppers with
  | nil =>
      intro index
      simp
  | cons sent rest ih =>
      intro index
      rw [List.foldl_cons, ih _ index, List.getElem?_modify]
      by_cases same : sent.1 = index
      · simp [same, Channel.pushReturned, Function.comp_def]
      · simp [same]

/-- Nothing is answered, and what is accepted came from one of the first upper levels. -/
structure Quiet (bound : Nat) (walker next : PageTableWalker config) : Prop where
  upperLevels : next.upperLevels = walker.upperLevels
  answered : next.ledger.answered = walker.ledger.answered
  accepted : ∀ record ∈ next.ledger.accepted,
    record ∈ walker.ledger.accepted ∨ record.upper < bound

theorem quiet_refl (bound : Nat) (walker : PageTableWalker config) : Quiet bound walker walker :=
  ⟨rfl, rfl, fun _record member => Or.inl member⟩

theorem Quiet.trans {bound : Nat} (first : Quiet bound walker next)
    (second : Quiet bound next last) : Quiet bound walker last := by
  refine ⟨second.upperLevels.trans first.upperLevels, second.answered.trans first.answered, ?_⟩
  intro record member
  rcases second.accepted record member with before | added
  · exact first.accepted record before
  · exact Or.inr added

theorem finishPackets_quiet (bound : Nat) (walker : PageTableWalker config) :
    Ends (fun _ => True) walker.finishPackets (Quiet bound walker) := by
  unfold finishPackets
  apply (Outcome.foldlM_ends _ (Quiet bound walker) walker.lowerLevel.returned ?_ walker
    (quiet_refl bound walker)).bind
  · intro finished quiet
    exact ⟨quiet.upperLevels, quiet.answered, quiet.accepted⟩
  · intro state packet _member quiet
    unfold finishPacket
    apply (ends_anything _).bind
    intro done _trivial
    exact ⟨quiet.upperLevels, quiet.answered, quiet.accepted⟩

theorem handleFill_quiet (bound : Nat) (walker : PageTableWalker config) (item : PtwMshr) :
    Ends (fun _ => True) (walker.handleFill item) (fun handled => Quiet bound walker handled.2) := by
  unfold handleFill
  apply (ends_anything _).bind
  intro pscl _trivial
  apply (ends_anything _).bind
  intro filled _trivial
  dsimp only
  split <;> exact ⟨rfl, rfl, fun _record member => Or.inl member⟩

theorem handleRead_quiet {bound upper : Nat} (below : upper < bound)
    (walker : PageTableWalker config) (item : Request) :
    Ends (fun _ => True) (walker.handleRead upper item)
      (fun handled => Quiet bound walker handled.2) := by
  unfold handleRead
  apply (ends_anything _).bind
  intro checked _trivial
  apply (ends_anything _).bind
  intro walkOffset _trivial
  dsimp only
  split
  case h_1 => exact ⟨rfl, rfl, fun _record member => Or.inl member⟩
  case h_2 =>
    refine ⟨rfl, rfl, ?_⟩
    intro record member
    rcases List.mem_append.mp member with before | added
    · exact Or.inl before
    · rw [List.mem_singleton.mp added]
      exact Or.inr below

theorem handleFront_quiet {Item : Type} {bound : Nat}
    {handle : PageTableWalker config → Item →
      Except Fault (Option PtwMshr × PageTableWalker config)}
    (kept : ∀ state item, Ends (fun _ => True) (handle state item)
      (fun handled => Quiet bound state handled.2))
    (walker : PageTableWalker config) (items : List Item) :
    Ends (fun _ => True) (handleFront handle walker items)
      (fun handled => Quiet bound walker handled.2.2) := by
  apply handleFront_ends (fun state _moving _items => Quiet bound walker state) ?_ items walker []
    (quiet_refl bound walker)
  intro state moving item rest quiet
  apply (kept state item).mono
  intro handled more
  unfold Handled
  split <;> exact quiet.trans more

theorem fillFinished_quiet (bound bandwidth : Nat) (walker : PageTableWalker config) :
    Ends (fun _ => True) (walker.fillFinished bandwidth)
      (fun filled => Quiet bound walker filled.2) := by
  unfold fillFinished
  apply (handleFront_quiet (handleFill_quiet bound) walker _).bind
  intro handled quiet
  exact ⟨quiet.upperLevels, quiet.answered, quiet.accepted⟩

theorem readUppers_quiet (channels : List Channel) (upper bandwidth bound : Nat)
    (within : upper + channels.length ≤ bound) (walker : PageTableWalker config) :
    Ends (fun _ => True) (readUppers upper channels bandwidth walker) (fun read =>
      Quiet bound walker read.2.2 ∧
        read.2.1.map Channel.returned = channels.map Channel.returned) := by
  induction channels generalizing upper bandwidth walker with
  | nil => exact ⟨quiet_refl bound walker, rfl⟩
  | cons channel rest ih =>
      rw [List.length_cons] at within
      have below : upper < bound := by omega
      unfold readUppers
      apply (handleFront_quiet (handleRead_quiet below) walker _).bind
      intro handled quiet
      apply (ih (upper + 1) (bandwidth - handled.1.length) (by omega) handled.2.2).bind
      intro others found
      obtain ⟨more, same⟩ := found
      exact ⟨quiet.trans more, congrArg (channel.returned :: ·) same⟩

theorem answerCompleted_sends (walker : PageTableWalker config) :
    ∃ done, walker.answerCompleted.ledger.answered = walker.ledger.answered ++ done ∧
      walker.answerCompleted.ledger.accepted = walker.ledger.accepted ∧
      walker.answerCompleted.upperLevels.length = walker.upperLevels.length ∧
      Sent walker.upperLevels walker.answerCompleted.upperLevels
        (done.flatMap PtwMshr.responses) := by
  refine ⟨_, rfl, rfl, ?_, sent_foldl _ _⟩
  unfold answerCompleted
  dsimp only
  generalize List.flatMap PtwMshr.responses _ = answers
  generalize walker.upperLevels = uppers
  induction answers generalizing uppers with
  | nil => rfl
  | cons sent rest ih =>
      rw [List.foldl_cons, ih, List.length_modify]

structure Answers (walker next : PageTableWalker config) : Prop where
  sized : next.upperLevels.length = walker.upperLevels.length
  accepted : ∀ record ∈ next.ledger.accepted,
    record ∈ walker.ledger.accepted ∨ record.upper < walker.upperLevels.length
  sent : ∃ done, next.ledger.answered = walker.ledger.answered ++ done ∧
    Sent walker.upperLevels next.upperLevels (done.flatMap PtwMshr.responses)

theorem operate_answers (walker : PageTableWalker config) :
    Ends (fun _ => True) walker.operate (Answers walker) := by
  unfold operate
  apply (finishPackets_quiet walker.upperLevels.length _).bind
  intro finished first
  apply (fillFinished_quiet walker.upperLevels.length _ _).bind
  intro filled second
  obtain ⟨done, answered, accepted, sized, sent⟩ := answerCompleted_sends finished
  have uppers : finished.upperLevels = walker.upperLevels := first.upperLevels
  rw [uppers] at sized sent
  have within : 0 + filled.2.upperLevels.length ≤ walker.upperLevels.length := by
    rw [second.upperLevels, sized, Nat.zero_add]
  apply (readUppers_quiet _ 0 _ walker.upperLevels.length within _).bind
  intro read ⟨third, same⟩
  have sameLength := congrArg List.length same
  rw [List.length_map, List.length_map, second.upperLevels, sized] at sameLength
  refine ⟨sameLength, ?_, done, ?_, ?_⟩
  · intro record member
    rcases third.accepted record member with before | added
    · rcases second.accepted record before with old | added
      · rw [accepted] at old
        exact first.accepted record old
      · exact Or.inr added
    · exact Or.inr added
  · exact third.answered.trans (second.answered.trans (answered.trans
      (congrArg (· ++ done) first.answered)))
  · intro index
    have after := congrArg (fun returned => returned[index]?) same
    rw [List.getElem?_map, List.getElem?_map, second.upperLevels] at after
    exact after.trans (sent index)

/-! ### Every run -/

theorem mapM_made {Item Value : Type} {make : Item → Option Value} {items : List Item}
    {values : List Value} (made : items.mapM make = some values) :
    values.length = items.length ∧ ∀ value ∈ values, ∃ item, make item = some value := by
  induction items generalizing values with
  | nil =>
      cases made
      exact ⟨rfl, by simp⟩
  | cons item rest ih =>
      rw [List.mapM_cons] at made
      obtain ⟨value, isValue, others⟩ := Option.bind_eq_some_iff.mp made
      obtain ⟨last, isLast, same⟩ := Option.bind_eq_some_iff.mp others
      cases same
      obtain ⟨sized, each⟩ := ih isLast
      refine ⟨congrArg (· + 1) sized, ?_⟩
      intro other member
      rcases List.mem_cons.mp member with isFirst | later
      · exact ⟨item, isFirst ▸ isValue⟩
      · exact each other later

theorem make_sound {vmem : VirtualMemory config.paging} {uppers : List Channel} {lower : Channel}
    (made : make config vmem uppers lower = some walker) :
    Sound walker [] walker.finished ∧ walker.ledger = {} := by
  unfold make at made
  obtain ⟨cr3, _isCr3, rest⟩ := Option.bind_eq_some_iff.mp made
  obtain ⟨pscl, isPscl, same⟩ := Option.bind_eq_some_iff.mp rest
  cases same
  obtain ⟨sized, each⟩ := mapM_made isPscl
  refine ⟨⟨sized, ?_, ?_, ?_, ?_, ?_⟩, rfl⟩
  · intro index table present
    obtain ⟨dims, madeTable⟩ := each table (List.mem_of_getElem? present)
    obtain ⟨inner, isInner, isTable⟩ := Option.map_eq_some_iff.mp madeTable
    rw [← isTable]
    exact LruTable.make_holds isInner
  · intro number
    rfl
  · intro entry member
    cases member
  · intro entry member
    cases member
  · intro entry member
    cases member

structure Reached (walker : PageTableWalker config) : Prop where
  sound : Sound walker [] walker.finished
  uppers : ∀ record ∈ walker.ledger.accepted, record.upper < walker.upperLevels.length

theorem step_reached (reached : Reached walker) (label : Step config.paging)
    (stepped : (machine config).step walker label = some next) : Reached next := by
  cases label with
  | operate =>
      have isNext : walker.operate = .ok next := by
        cases result : walker.operate with
        | error fault =>
            change walker.operate.toOption = some next at stepped
            rw [result] at stepped
            cases stepped
        | ok value =>
            change walker.operate.toOption = some next at stepped
            rw [result] at stepped
            exact congrArg Except.ok (Option.some.inj stepped)
      have sound := operate_ends reached.sound
      have answers := operate_answers walker
      rw [isNext] at sound answers
      refine ⟨sound, ?_⟩
      intro record member
      rw [answers.sized]
      rcases answers.accepted record member with before | added
      · exact reached.uppers record before
      · exact added
  | channels upperLevels lowerLevel =>
      change (if upperLevels.length = walker.upperLevels.length then _ else none) = _ at stepped
      split at stepped
      case isTrue sized =>
        cases stepped
        obtain ⟨isSized, leveled, counts, waiting, inner, last⟩ := reached.sound
        refine ⟨⟨isSized, leveled, counts, waiting, inner, last⟩, ?_⟩
        intro record member
        dsimp only
        rw [sized]
        exact reached.uppers record member
      case isFalse => cases stepped
  | translate call =>
      obtain ⟨vmem, called, same⟩ := Option.map_eq_some_iff.mp stepped
      cases same
      have kept := VirtualMemory.step_extends call called
      obtain ⟨isSized, leveled, counts, waiting, inner, last⟩ := reached.sound
      refine ⟨⟨isSized, leveled, counts, ?_, ?_, ?_⟩, reached.uppers⟩
      · intro entry member
        exact (waiting entry member).extends kept
      · intro entry member
        obtain ⟨stands, positive, answered⟩ := inner entry member
        exact ⟨stands.extends kept, positive, answered.mono kept⟩
      · intro entry member
        obtain ⟨stands, isLast, answered⟩ := last entry member
        exact ⟨stands.extends kept, isLast, answered.mono kept⟩
  | warmup value =>
      cases stepped
      obtain ⟨isSized, leveled, counts, waiting, inner, last⟩ := reached.sound
      exact ⟨⟨isSized, leveled, counts, waiting, inner, last⟩, reached.uppers⟩

theorem run_reached {vmem : VirtualMemory config.paging} {uppers : List Channel} {lower : Channel}
    {start finish : PageTableWalker config} (made : make config vmem uppers lower = some start)
    (labels : List (Step config.paging))
    (ran : (machine config).run start labels = some finish) : Reached finish := by
  obtain ⟨sound, nothing⟩ := make_sound made
  have initial : Reached start := by
    refine ⟨sound, ?_⟩
    intro record member
    rw [nothing] at member
    cases member
  exact (machine config).run_invariant Reached
    (fun _state label _next reached stepped => step_reached reached label stepped)
    labels start finish initial ran

/-- Every accepted request has one walk, which ends after the reads below the smallest level that
hit and is answered once. -/
structure Accounted (walker : PageTableWalker config) : Prop where
  once : ∀ number < walker.ledger.accepted.length,
    tally number walker.mshr + tally number walker.finished + tally number walker.completed +
      tally number walker.ledger.answered = 1
  level : ∀ entry ∈ walker.mshr ++ walker.finished ++ walker.completed ++ walker.ledger.answered,
    entry.translationLevel ≤ walker.pscl.length
  completed : ∀ entry ∈ walker.completed ++ walker.ledger.answered, ∃ record,
    walker.ledger.accepted[entry.walk.number]? = some record ∧
    entry.walk.reads.length = startLevel walker.pscl.length record.hits + 1 ∧
    entry.responses = reply walker.vmem record ∧
    record.upper < walker.upperLevels.length
  indexed : walker.operate ≠ .error .outOfRange
  answers : ∀ next, walker.operate = .ok next →
    ∃ done, next.ledger.answered = walker.ledger.answered ++ done ∧
      Sent walker.upperLevels next.upperLevels (done.flatMap PtwMshr.responses)

/-- In every run, whatever the channels do. -/
theorem run_accounted (config : PtwConfig) (vmem : VirtualMemory config.paging)
    (uppers : List Channel) (lower : Channel) (start finish : PageTableWalker config)
    (labels : List (Step config.paging)) (made : make config vmem uppers lower = some start)
    (ran : (machine config).run start labels = some finish) : Accounted finish := by
  obtain ⟨sound, within⟩ := run_reached made labels ran
  refine ⟨?_, ?_, ?_, ?_, ?_⟩
  · intro number inside
    have counted := sound.counts number
    rw [if_pos inside, tally_nil] at counted
    omega
  · intro entry member
    have stands : Stands config.levels finish.cr3Addr finish.ledger.accepted finish.vmem entry := by
      simp only [List.mem_append] at member
      rcases member with ((waiting | inner) | completed) | answered
      · exact sound.waiting entry (List.mem_append_left _ waiting)
      · exact (sound.inner entry inner).1
      · exact (sound.last entry (List.mem_append_left _ completed)).1
      · exact (sound.last entry (List.mem_append_right _ answered)).1
    obtain ⟨_record, follows⟩ := stands
    rw [sound.sized]
    exact follows.below.trans follows.within
  · intro entry member
    obtain ⟨⟨record, follows⟩, isLast, answered⟩ := sound.last entry member
    refine ⟨record, follows.recorded, ?_, follows.responses isLast answered,
      within record (List.mem_of_getElem? follows.recorded)⟩
    have sized := follows.reads_length
    rw [isLast] at sized
    rw [sound.sized]
    exact sized
  · intro failed
    have ends := operate_ends sound
    rw [failed] at ends
    exact ends rfl
  · intro next operated
    have answers := operate_answers finish
    rw [operated] at answers
    exact answers.sent

/-! ### Two tables -/

/-- Tables for the levels two and one, and time for a fault between operations. -/
def twoTables : PtwConfig where
  paging := VirtualMemory.twoMebibytes 512 (by decide) (by decide) (by decide)
  log2BlockSize := 6
  cpu := 0
  pscl := [(3, 1, 1), (2, 1, 1)]
  sixteen := by decide
  clockPeriod := 1000
  hitLatency := 1
  maxRead := 2
  maxFill := 2
  partition := Partition.stable PtwMshr

def idle : Channel := { rqSize := 4, pqSize := 4, wqSize := 4 }

def twoTablesRun (labels : List (Step twoTables.paging)) : Option (PageTableWalker twoTables) :=
  (make twoTables (VirtualMemory.fresh twoTables.paging) [idle] idle).bind
    (fun start => (machine twoTables).run start labels)

def requested (address : Address) : List (Step twoTables.paging) :=
  [.channels [{ idle with rq := [{ address, vAddress := address, cpu := 0 }] }] idle, .operate]

def responded (address : Address) : List (Step twoTables.paging) :=
  [.channels [idle] { idle with returned := [{ address }] }, .operate, .operate]

theorem twoTables_dims : twoTables.localPsclDims = [(3, 1, 1), (2, 1, 1)] := by
  unfold PtwConfig.localPsclDims
  rw [List.mergeSort_of_pairwise]
  · rfl
  · decide

/-- A walk from CR3, and one of the next page that starts from a table. -/
def walkedNext : List (Step twoTables.paging) :=
  requested 0x12345678 ++ responded 1049736 ++ responded 1053832 ++ responded 1059368 ++
    requested 0x12346678 ++ responded 1059376 ++ responded 1067568

private theorem walkedNext_answers :
    (twoTablesRun walkedNext).map (fun finish => finish.ledger.answered.map (fun entry =>
      (entry.walk.start, entry.walk.reads.length, entry.responses))) =
      some [(2, 3, [(0, { address := 0x12345678, vAddress := 0x12345678, data := 0x103000 })]),
        (1, 2, [(0, { address := 0x12346678, vAddress := 0x12346678, data := 0x105000 })])] := by
  unfold twoTablesRun make
  rw [twoTables_dims]
  decide +kernel

theorem run_accounted_walkedNext :
    ∃ finish, twoTablesRun walkedNext = some finish ∧
      finish.ledger.answered.map (fun entry =>
        (entry.walk.start, entry.walk.reads.length, entry.responses)) =
        [(2, 3, [(0, { address := 0x12345678, vAddress := 0x12345678, data := 0x103000 })]),
          (1, 2, [(0, { address := 0x12346678, vAddress := 0x12346678, data := 0x105000 })])] ∧
      Accounted finish := by
  obtain ⟨finish, ran, answered⟩ := Option.map_eq_some_iff.mp walkedNext_answers
  obtain ⟨start, made, remaining⟩ := Option.bind_eq_some_iff.mp ran
  exact ⟨finish, ran, answered, run_accounted twoTables _ _ _ start finish _ made remaining⟩

end PageTableWalker

end ChampSim.Ptw

/-
How many walks are in flight.

An operation answers completed walks, sends the next reads of finished ones and
starts new walks while the bandwidth for reads and the queue of the lower level
last. It never looks at `MSHR_SIZE`: the walks stay within it as long as no
operation may start more of them than there are places.
-/

import ChampSim.Ptw.WalkRuns

set_option autoImplicit false

namespace ChampSim.Ptw

open Cache (Request Response Channel Waitable)
open Outcome (Ends bind_ok ends_anything ends_of_ok)
open Transition (Machine)
open Vmem (Paging VirtualMemory)

namespace PageTableWalker

variable {config : PtwConfig} {walker next : PageTableWalker config}

def inFlight (walker : PageTableWalker config) : Nat :=
  walker.mshr.length + walker.finished.length + walker.completed.length

/-- The free entries of the read queue of the lower level. -/
def lowerRoom (walker : PageTableWalker config) : Nat :=
  walker.lowerLevel.rqSize - walker.lowerLevel.rq.length

def waiting (walker : PageTableWalker config) : Nat :=
  (walker.upperLevels.map (fun channel => channel.rq.length)).sum

/-- The walks at the front of a queue that are ready at a time. -/
def readyFront (time : Nat) (entries : List PtwMshr) : Nat :=
  (entries.takeWhile (fun entry => entry.data.isReadyAt time)).length

def answerable (walker : PageTableWalker config) : Nat :=
  min config.maxFill (readyFront walker.currentTime walker.completed)

def descending (walker : PageTableWalker config) : Nat :=
  min (min (config.maxFill - walker.answerable) (readyFront walker.currentTime walker.finished))
    walker.lowerRoom

def admissible (walker : PageTableWalker config) : Nat :=
  min (min config.maxRead walker.waiting) (walker.lowerRoom - walker.descending)

def tick (walker : PageTableWalker config) : PageTableWalker config :=
  { walker with currentTime := walker.currentTime + config.clockPeriod }

/-- There is a place for each walk that may start: the walks in flight and the requests that wait,
as far as they can be read, are no more than the places and the walks that are ready to be answered
in the next cycle. -/
def HasRoom (size : Nat) (walker : PageTableWalker config) : Prop :=
  walker.inFlight + walker.tick.admissible ≤ size + walker.tick.answerable

/-! ### Responses -/

theorem finishEntries_length (entries : List PtwMshr) (vmem : VirtualMemory config.paging)
    (done : List PtwMshr × VirtualMemory config.paging)
    (ran : walker.finishEntries entries vmem = .ok done) : done.1.length = entries.length := by
  induction entries generalizing vmem done with
  | nil =>
      cases ran
      rfl
  | cons entry rest ih =>
      unfold finishEntries at ran
      obtain ⟨finished, _isFinished, ran⟩ := bind_ok ran
      obtain ⟨others, isOthers, ran⟩ := bind_ok ran
      cases ran
      exact congrArg (· + 1) (ih finished.2 others isOthers)

theorem finishPacket_inFlight (packet : Response)
    (ran : walker.finishPacket packet = .ok next) : next.inFlight = walker.inFlight := by
  unfold finishPacket at ran
  obtain ⟨done, isDone, ran⟩ := bind_ok ran
  cases ran
  have sized := finishEntries_length _ _ done isDone
  dsimp only at sized
  have parts := List.length_eq_length_filter_add (l := done.1)
    (fun entry => decide (entry.translationLevel = 0))
  have whole := (config.partition.perm
    (fun entry => decide (entry.address.sliceUpper config.log2BlockSize =
      packet.address.sliceUpper config.log2BlockSize)) walker.mshr).length_eq
  rw [List.length_append] at whole
  unfold inFlight
  dsimp only
  rw [List.length_append, List.length_append]
  omega

theorem finishPackets_inFlight (ran : walker.finishPackets = .ok next) :
    next.inFlight = walker.inFlight := by
  have kept : Ends (fun _ => True)
      (walker.lowerLevel.returned.foldlM (fun state packet => finishPacket state packet) walker)
      (fun state => state.inFlight = walker.inFlight) := by
    refine Outcome.foldlM_ends _ (fun state => state.inFlight = walker.inFlight) _ ?_ walker rfl
    intro state packet _member same
    exact ends_of_ok (fun finished finishes => (finishPacket_inFlight packet finishes).trans same)
  unfold finishPackets at ran
  obtain ⟨finished, isFinished, ran⟩ := bind_ok ran
  cases ran
  rw [isFinished] at kept
  exact kept

/-- An entry that was finished in a cycle is not ready in it, with a latency and outside warmup. -/
def Late (walker : PageTableWalker config) (entry : PtwMshr) : Prop :=
  0 < config.hitLatency → walker.warmup = false →
    entry.data.isReadyAt walker.currentTime = false

/-- Responses add walks behind those that are finished and completed. -/
structure Settles (walker settled : PageTableWalker config) : Prop where
  completed : ∃ more, settled.completed = walker.completed ++ more ∧
    ∀ entry ∈ more, Late walker entry
  finished : ∃ more, settled.finished = walker.finished ++ more ∧ ∀ entry ∈ more, Late walker entry
  upperLevels : settled.upperLevels = walker.upperLevels
  currentTime : settled.currentTime = walker.currentTime
  warmup : settled.warmup = walker.warmup
  lowerRoom : settled.lowerRoom = walker.lowerRoom

theorem finishEntry_late (vmem : VirtualMemory config.paging) (entry : PtwMshr)
    (done : PtwMshr × VirtualMemory config.paging)
    (ran : walker.finishEntry vmem entry = .ok done) : Late walker done.1 := by
  have late : ∀ (value : Address) (penalty : Nat), 0 < config.hitLatency →
      walker.warmup = false → (⟨value, some (walker.currentTime + penalty +
        if walker.warmup then 0 else config.hitLatency)⟩ : Waitable Address).isReadyAt
          walker.currentTime = false := by
    intro value penalty latency noWarmup
    rw [noWarmup, if_neg Bool.false_ne_true]
    apply decide_eq_false
    omega
  intro latency noWarmup
  unfold finishEntry at ran
  dsimp only at ran
  split at ran
  · cases ran
    exact late _ _ latency noWarmup
  · obtain ⟨called, _isCalled, ran⟩ := bind_ok ran
    cases ran
    exact late _ _ latency noWarmup

theorem finishEntries_late (entries : List PtwMshr) (vmem : VirtualMemory config.paging)
    (done : List PtwMshr × VirtualMemory config.paging)
    (ran : walker.finishEntries entries vmem = .ok done) :
    ∀ entry ∈ done.1, Late walker entry := by
  induction entries generalizing vmem done with
  | nil =>
      cases ran
      intro entry member
      cases member
  | cons entry rest ih =>
      unfold finishEntries at ran
      obtain ⟨finished, isFinished, ran⟩ := bind_ok ran
      obtain ⟨others, isOthers, ran⟩ := bind_ok ran
      cases ran
      intro other member
      rcases List.mem_cons.mp member with isFirst | later
      · rw [isFirst]
        exact finishEntry_late vmem entry finished isFinished
      · exact ih finished.2 others isOthers other later

theorem append_late {queue now new : List PtwMshr}
    (before : ∃ more, now = queue ++ more ∧ ∀ entry ∈ more, Late walker entry)
    (late : ∀ entry ∈ new, Late walker entry) :
    ∃ more, now ++ new = queue ++ more ∧ ∀ entry ∈ more, Late walker entry := by
  obtain ⟨more, same, moreLate⟩ := before
  refine ⟨more ++ new, by rw [same, List.append_assoc], ?_⟩
  intro entry member
  exact (List.mem_append.mp member).elim (moreLate entry) (late entry)

theorem finishPacket_settles {state : PageTableWalker config} (packet : Response)
    (before : Settles walker state) (ran : state.finishPacket packet = .ok next) :
    Settles walker next := by
  unfold finishPacket at ran
  obtain ⟨done, isDone, ran⟩ := bind_ok ran
  cases ran
  have late : ∀ entry ∈ done.1, Late walker entry := by
    intro entry member latency noWarmup
    rw [← before.currentTime]
    exact finishEntries_late _ _ done isDone entry member latency
      (before.warmup.trans noWarmup)
  refine ⟨append_late before.completed ?_, append_late before.finished ?_, before.upperLevels,
    before.currentTime, before.warmup, before.lowerRoom⟩
  · intro entry member
    exact late entry (List.mem_filter.mp member).1
  · intro entry member
    exact late entry (List.mem_filter.mp member).1

theorem finishPackets_settles (ran : walker.finishPackets = .ok next) : Settles walker next := by
  have none : Settles walker walker :=
    ⟨⟨[], (List.append_nil _).symm, fun _entry member => by cases member⟩,
      ⟨[], (List.append_nil _).symm, fun _entry member => by cases member⟩, rfl, rfl, rfl, rfl⟩
  have kept : Ends (fun _ => True)
      (walker.lowerLevel.returned.foldlM (fun state packet => finishPacket state packet) walker)
      (Settles walker) := by
    refine Outcome.foldlM_ends _ (Settles walker) _ ?_ walker none
    intro state packet _member settles
    exact ends_of_ok (fun finished finishes => finishPacket_settles packet settles finishes)
  unfold finishPackets at ran
  obtain ⟨finished, isFinished, ran⟩ := bind_ok ran
  cases ran
  rw [isFinished] at kept
  exact ⟨kept.completed, kept.finished, kept.upperLevels, kept.currentTime, kept.warmup,
    kept.lowerRoom⟩

theorem Settles.admissible_le {settled : PageTableWalker config}
    (settles : Settles walker settled) :
    settled.admissible + walker.answerable ≤ walker.admissible + settled.answerable := by
  obtain ⟨completed, isCompleted, _late⟩ := settles.completed
  obtain ⟨finished, isFinished, _late⟩ := settles.finished
  have moreCompleted : readyFront walker.currentTime walker.completed ≤
      readyFront walker.currentTime (walker.completed ++ completed) :=
    Queue.front_le_append _ _ _
  have moreFinished : readyFront walker.currentTime walker.finished ≤
      readyFront walker.currentTime (walker.finished ++ finished) :=
    Queue.front_le_append _ _ _
  unfold admissible descending answerable waiting
  rw [settles.lowerRoom, settles.upperLevels, settles.currentTime, isCompleted, isFinished]
  omega

theorem Settles.late {settled : PageTableWalker config} (settles : Settles walker settled)
    (latency : 0 < config.hitLatency) (noWarmup : walker.warmup = false) :
    settled.admissible = walker.admissible ∧ settled.answerable = walker.answerable := by
  obtain ⟨completed, isCompleted, completedLate⟩ := settles.completed
  obtain ⟨finished, isFinished, finishedLate⟩ := settles.finished
  have sameCompleted : readyFront walker.currentTime (walker.completed ++ completed) =
      readyFront walker.currentTime walker.completed :=
    congrArg List.length (Queue.front_append_of_fails _ _ _
      (fun entry member => completedLate entry member latency noWarmup))
  have sameFinished : readyFront walker.currentTime (walker.finished ++ finished) =
      readyFront walker.currentTime walker.finished :=
    congrArg List.length (Queue.front_append_of_fails _ _ _
      (fun entry member => finishedLate entry member latency noWarmup))
  unfold admissible descending answerable waiting
  rw [settles.lowerRoom, settles.upperLevels, settles.currentTime, isCompleted, isFinished,
    sameCompleted, sameFinished]
  exact ⟨rfl, rfl⟩

/-! ### The places that walks take and free -/

/-- One item: its read takes an entry of the lower level, or there was none. The queues of the
walker stay. -/
structure Takes (walker : PageTableWalker config)
    (handled : Option PtwMshr × PageTableWalker config) : Prop where
  mshr : handled.2.mshr = walker.mshr
  finished : handled.2.finished = walker.finished
  completed : handled.2.completed = walker.completed
  upperLevels : handled.2.upperLevels = walker.upperLevels
  refused : handled.1 = none → walker.lowerRoom = 0
  room : handled.2.lowerRoom + handled.1.toList.length = walker.lowerRoom

theorem stepTranslation_none {source : PtwMshr} (refused : walker.stepTranslation source = none) :
    walker.lowerRoom = 0 := by
  unfold stepTranslation Channel.addRq Cache.doAddQueue at refused
  split at refused
  · rename_i full
    exact Nat.sub_eq_zero_of_le full
  · cases refused

theorem stepTranslation_some {source stepped : PtwMshr} {lower : Channel}
    (accepted : walker.stepTranslation source = some (stepped, lower)) :
    lower.rqSize - lower.rq.length + 1 = walker.lowerRoom := by
  unfold stepTranslation Channel.addRq Cache.doAddQueue at accepted
  unfold lowerRoom
  split at accepted
  · cases accepted
  · rename_i room
    cases accepted
    simp only [List.length_append, List.length_singleton]
    omega

theorem handleRead_takes {upper : Nat} {packet : Request}
    {handled : Option PtwMshr × PageTableWalker config}
    (ran : walker.handleRead upper packet = .ok handled) : Takes walker handled := by
  unfold handleRead at ran
  obtain ⟨checked, _isChecked, ran⟩ := bind_ok ran
  obtain ⟨walkOffset, _isOffset, ran⟩ := bind_ok ran
  dsimp only at ran
  split at ran
  · rename_i refused
    cases ran
    exact ⟨rfl, rfl, rfl, rfl, fun _none => stepTranslation_none refused, rfl⟩
  · rename_i source lower accepted
    cases ran
    refine ⟨rfl, rfl, rfl, rfl, ?_, stepTranslation_some accepted⟩
    intro impossible
    cases impossible

theorem handleFill_takes {entry : PtwMshr} {handled : Option PtwMshr × PageTableWalker config}
    (ran : walker.handleFill entry = .ok handled) : Takes walker handled := by
  unfold handleFill at ran
  obtain ⟨pscl, _isPscl, ran⟩ := bind_ok ran
  obtain ⟨filled, _isFilled, ran⟩ := bind_ok ran
  dsimp only at ran
  split at ran
  · rename_i refused
    cases ran
    refine ⟨rfl, rfl, rfl, rfl, ?_, rfl⟩
    intro _none
    exact stepTranslation_none refused
  · rename_i source lower accepted
    cases ran
    refine ⟨rfl, rfl, rfl, rfl, ?_, stepTranslation_some accepted⟩
    intro impossible
    cases impossible

/-- Items are taken from the front while the lower level has room. -/
structure TakesFront {Item : Type} (walker : PageTableWalker config) (items : List Item)
    (handled : List PtwMshr × List Item × PageTableWalker config) : Prop where
  mshr : handled.2.2.mshr = walker.mshr
  finished : handled.2.2.finished = walker.finished
  completed : handled.2.2.completed = walker.completed
  upperLevels : handled.2.2.upperLevels = walker.upperLevels
  taken : handled.1.length = min items.length walker.lowerRoom
  left : handled.2.1.length + handled.1.length = items.length
  room : handled.2.2.lowerRoom = walker.lowerRoom - handled.1.length

theorem handleFront_takes {Item : Type}
    {handle : PageTableWalker config → Item →
      Except Fault (Option PtwMshr × PageTableWalker config)}
    (takes : ∀ walker item handled, handle walker item = .ok handled → Takes walker handled)
    (items : List Item) :
    ∀ (walker : PageTableWalker config) (handled : _), handleFront handle walker items =
      .ok handled → TakesFront walker items handled := by
  induction items with
  | nil =>
      intro walker handled ran
      cases ran
      exact ⟨rfl, rfl, rfl, rfl, (Nat.zero_min _).symm, rfl, rfl⟩
  | cons item rest ih =>
      intro walker handled ran
      unfold handleFront at ran
      obtain ⟨first, isFirst, ran⟩ := bind_ok ran
      have one := takes walker item first isFirst
      have room := one.room
      cases isSource : first.1 with
      | none =>
          rw [isSource] at ran room
          cases ran
          have full := one.refused isSource
          refine ⟨one.mshr, one.finished, one.completed, one.upperLevels, ?_, rfl, room⟩
          rw [full]
          exact (Nat.min_zero _).symm
      | some source =>
          rw [isSource] at ran room
          obtain ⟨others, isOthers, ran⟩ := bind_ok ran
          cases ran
          obtain ⟨mshr, finished, completed, upperLevels, taken, left, after⟩ :=
            ih first.2 others isOthers
          rw [Option.toList_some, List.length_singleton] at room
          refine ⟨mshr.trans one.mshr, finished.trans one.finished,
            completed.trans one.completed, upperLevels.trans one.upperLevels, ?_, ?_, ?_⟩
          · simp only [List.length_cons]
            omega
          · simp only [List.length_cons]
            omega
          · simp only [List.length_cons]
            omega

theorem fillFinished_takes {bandwidth : Nat} {filled : List PtwMshr × PageTableWalker config}
    (ran : walker.fillFinished bandwidth = .ok filled) :
    filled.2.mshr = walker.mshr ∧ filled.2.completed = walker.completed ∧
      filled.2.upperLevels = walker.upperLevels ∧
      filled.2.finished.length + filled.1.length = walker.finished.length ∧
      filled.1.length = min (Queue.span bandwidth
        (fun entry => entry.data.isReadyAt walker.currentTime) walker.finished).length
          walker.lowerRoom ∧
      filled.2.lowerRoom = walker.lowerRoom - filled.1.length := by
  unfold fillFinished at ran
  obtain ⟨handled, isHandled, ran⟩ := bind_ok ran
  cases ran
  have takes := handleFront_takes (fun _state _entry _handled ran => handleFill_takes ran) _ _ _
    isHandled
  have whole := congrArg List.length (Queue.span_append_beyond bandwidth
    (fun entry : PtwMshr => entry.data.isReadyAt walker.currentTime) walker.finished)
  rw [List.length_append] at whole
  refine ⟨takes.mshr, takes.completed, takes.upperLevels, ?_, takes.taken, takes.room⟩
  have left := takes.left
  dsimp only
  rw [List.length_append]
  omega

theorem readUppers_takes (channels : List Channel) :
    ∀ (upper bandwidth : Nat) (walker : PageTableWalker config)
      (read : List PtwMshr × List Channel × PageTableWalker config),
      readUppers upper channels bandwidth walker = .ok read →
        read.2.2.mshr = walker.mshr ∧ read.2.2.completed = walker.completed ∧
          read.2.2.finished = walker.finished ∧
          read.1.length = min (min bandwidth
            (channels.map (fun channel => channel.rq.length)).sum) walker.lowerRoom := by
  induction channels with
  | nil =>
      intro upper bandwidth walker read ran
      cases ran
      refine ⟨rfl, rfl, rfl, ?_⟩
      rw [List.map_nil, List.sum_nil, Nat.min_zero, Nat.zero_min]
      rfl
  | cons channel rest ih =>
      intro upper bandwidth walker read ran
      unfold readUppers at ran
      obtain ⟨handled, isHandled, ran⟩ := bind_ok ran
      obtain ⟨others, isOthers, ran⟩ := bind_ok ran
      cases ran
      have takes := handleFront_takes (fun _state _packet _handled ran => handleRead_takes ran) _
        _ _ isHandled
      obtain ⟨mshr, completed, finished, taken⟩ := ih _ _ _ _ isOthers
      refine ⟨mshr.trans takes.mshr, completed.trans takes.completed,
        finished.trans takes.finished, ?_⟩
      have first := takes.taken
      have room := takes.room
      rw [List.length_take] at first
      simp only [List.length_append, List.map_cons, List.sum_cons]
      omega

theorem answerCompleted_waiting (walker : PageTableWalker config) :
    walker.answerCompleted.waiting = walker.waiting := by
  unfold answerCompleted waiting
  dsimp only
  generalize List.flatMap PtwMshr.responses _ = answers
  generalize walker.upperLevels = uppers
  induction answers generalizing uppers with
  | nil => rfl
  | cons sent rest ih =>
      have same : (uppers.modify sent.1 (fun channel => channel.pushReturned sent.2)).map
          (fun channel => channel.rq.length) = uppers.map (fun channel => channel.rq.length) := by
        apply List.ext_getElem?
        intro index
        rw [List.getElem?_map, List.getElem?_map, List.getElem?_modify]
        cases uppers[index]? with
        | none => rfl
        | some channel => by_cases here : sent.1 = index <;> simp [here, Channel.pushReturned]
      rw [List.foldl_cons, ih, same]

theorem operate_inFlight (ran : walker.operate = .ok next) :
    ∃ settled, Settles walker.tick settled ∧
      next.inFlight + settled.answerable = walker.inFlight + settled.admissible := by
  unfold operate at ran
  obtain ⟨finished, isFinished, ran⟩ := bind_ok ran
  obtain ⟨filled, isFilled, ran⟩ := bind_ok ran
  obtain ⟨read, isRead, ran⟩ := bind_ok ran
  cases ran
  refine ⟨finished, finishPackets_settles isFinished, ?_⟩
  have settles : finished.inFlight = walker.tick.inFlight := finishPackets_inFlight isFinished
  have kept : finished.inFlight = walker.inFlight := settles
  obtain ⟨mshr, completed, upperLevels, finishedLeft, descends, room⟩ :=
    fillFinished_takes isFilled
  obtain ⟨readMshr, readCompleted, readFinished, admits⟩ := readUppers_takes _ _ _ _ _ isRead
  have answers := congrArg List.length (Queue.span_append_beyond config.maxFill
    (fun entry : PtwMshr => entry.data.isReadyAt finished.currentTime) finished.completed)
  rw [List.length_append, Queue.span_length] at answers
  change finished.answerable + finished.answerCompleted.completed.length =
    finished.completed.length at answers
  have bandwidth : finished.completed.length - finished.answerCompleted.completed.length =
      finished.answerable := by omega
  rw [bandwidth, Queue.span_length] at descends
  change filled.1.length = finished.descending at descends
  change filled.2.lowerRoom = finished.lowerRoom - filled.1.length at room
  rw [upperLevels, room, descends] at admits
  change read.1.length = min (min config.maxRead finished.answerCompleted.waiting)
    (finished.lowerRoom - finished.descending) at admits
  rw [answerCompleted_waiting] at admits
  change read.1.length = finished.admissible at admits
  change filled.2.finished.length + filled.1.length = finished.finished.length at finishedLeft
  unfold inFlight at kept ⊢
  dsimp only at kept ⊢
  rw [readFinished, readCompleted, completed, List.length_append, List.length_append, readMshr,
    mshr]
  change finished.answerCompleted.mshr.length + filled.1.length + read.1.length +
    filled.2.finished.length + finished.answerCompleted.completed.length + finished.answerable =
      walker.mshr.length + walker.finished.length + walker.completed.length + finished.admissible
  have unmoved : finished.answerCompleted.mshr.length = finished.mshr.length := rfl
  omega

theorem HasRoom.operate {size : Nat} (room : walker.HasRoom size)
    (ran : walker.operate = .ok next) : next.inFlight ≤ size := by
  obtain ⟨settled, settles, balance⟩ := operate_inFlight ran
  have few := settles.admissible_le
  unfold HasRoom at room
  omega

/-- When no response is ready at once, only an operation with room keeps the bound. -/
theorem hasRoom_of_operate {size : Nat} (latency : 0 < config.hitLatency)
    (noWarmup : walker.warmup = false) (ran : walker.operate = .ok next)
    (bounded : next.inFlight ≤ size) : walker.HasRoom size := by
  obtain ⟨settled, settles, balance⟩ := operate_inFlight ran
  obtain ⟨admits, answers⟩ := settles.late latency noWarmup
  unfold HasRoom
  omega

/-! ### Runs -/

theorem step_inFlight {label : Step config.paging} (quiet : label ≠ .operate)
    (stepped : (machine config).step walker label = some next) :
    next.inFlight = walker.inFlight := by
  cases label with
  | operate => exact absurd rfl quiet
  | channels upperLevels lowerLevel =>
      change (if upperLevels.length = walker.upperLevels.length then _ else none) = _ at stepped
      split at stepped
      · cases stepped
        rfl
      · cases stepped
  | translate call =>
      obtain ⟨vmem, _called, same⟩ := Option.map_eq_some_iff.mp stepped
      cases same
      rfl
  | warmup value =>
      cases stepped
      rfl

/-- Every state that a run reaches keeps to a number of walks. -/
def Bounded (size : Nat) (start : PageTableWalker config) (labels : List (Step config.paging)) :
    Prop :=
  ∀ front rest state, labels = front ++ rest → (machine config).run start front = some state →
    state.inFlight ≤ size

def AlwaysRoom (size : Nat) (start : PageTableWalker config)
    (labels : List (Step config.paging)) : Prop :=
  ∀ front rest state, labels = front ++ .operate :: rest →
    (machine config).run start front = some state → state.HasRoom size

theorem make_inFlight {vmem : VirtualMemory config.paging} {uppers : List Channel}
    {lower : Channel} (made : make config vmem uppers lower = some walker) :
    walker.inFlight = 0 := by
  unfold make at made
  obtain ⟨cr3, _isCr3, made⟩ := Option.bind_eq_some_iff.mp made
  obtain ⟨pscl, _isPscl, made⟩ := Option.bind_eq_some_iff.mp made
  cases made
  rfl

theorem operate_of_step (stepped : (machine config).step walker .operate = some next) :
    walker.operate = .ok next := by
  change walker.operate.toOption = some next at stepped
  cases ran : walker.operate with
  | error fault =>
      rw [ran] at stepped
      cases stepped
  | ok last =>
      rw [ran] at stepped
      cases stepped
      rfl

def NoWarmup (start : PageTableWalker config) (labels : List (Step config.paging)) : Prop :=
  ∀ front rest state, labels = front ++ .operate :: rest →
    (machine config).run start front = some state → state.warmup = false

/-- When each operation of a run has room, the walks stay within the size in every state. With a
latency and outside warmup, they do only then. -/
theorem run_inFlight (config : PtwConfig) (size : Nat)
    (vmem : VirtualMemory config.paging) (uppers : List Channel) (lower : Channel)
    (start finish : PageTableWalker config) (labels : List (Step config.paging))
    (made : make config vmem uppers lower = some start)
    (ran : (machine config).run start labels = some finish) :
    (AlwaysRoom size start labels → Bounded size start labels) ∧
      (0 < config.hitLatency → NoWarmup start labels →
        Bounded size start labels → AlwaysRoom size start labels) := by
  constructor
  · intro room front
    induction front using List.reverseRecOn with
    | nil =>
        intro rest state _split reached
        cases reached
        rw [make_inFlight made]
        exact Nat.zero_le _
    | append_singleton front label ih =>
        intro rest state split reached
        rw [Machine.run_append] at reached
        obtain ⟨middle, before, reached⟩ := Option.bind_eq_some_iff.mp reached
        rw [Machine.run_cons] at reached
        obtain ⟨next, stepped, last⟩ := Option.bind_eq_some_iff.mp reached
        cases last
        rw [List.append_assoc, List.singleton_append] at split
        have bounded := ih (label :: rest) middle split before
        by_cases quiet : label = .operate
        · rw [quiet] at stepped split
          exact (room front rest middle split before).operate (operate_of_step stepped)
        · rw [step_inFlight quiet stepped]
          exact bounded
  · intro latency noWarmup bounded front rest state split reached
    have outside := noWarmup front rest state split reached
    rw [split, Machine.run_append, reached, Option.bind_some, Machine.run_cons] at ran
    obtain ⟨next, stepped, _remaining⟩ := Option.bind_eq_some_iff.mp ran
    apply hasRoom_of_operate latency outside (operate_of_step stepped)
    apply bounded (front ++ [.operate]) rest next
    · rw [split, List.append_assoc]
      rfl
    · rw [Machine.run_append, reached, Option.bind_some, Machine.run_cons, stepped]
      rfl

def twoRequests : List (Step twoTables.paging) :=
  [.channels [{ idle with rq := [{ address := 0x1000, vAddress := 0x1000, cpu := 0 },
      { address := 0x400000, vAddress := 0x400000, cpu := 0 }] }] idle, .operate]

/-- Two walks are in flight, whatever the size. -/
theorem twoRequests_exceed :
    ∃ start finish, make twoTables (VirtualMemory.fresh twoTables.paging) [idle] idle =
        some start ∧ (machine twoTables).run start twoRequests = some finish ∧
      ¬finish.inFlight ≤ 1 := by
  have counted : (twoTablesRun twoRequests).map (fun finish =>
      decide (finish.inFlight ≤ 1)) = some false := by
    unfold twoTablesRun make
    rw [twoTables_dims]
    decide +kernel
  obtain ⟨finish, ran, exceeds⟩ := Option.map_eq_some_iff.mp counted
  obtain ⟨start, made, remaining⟩ := Option.bind_eq_some_iff.mp ran
  exact ⟨start, finish, made, remaining, of_decide_eq_false exceeds⟩

theorem run_inFlight_twoTables :
    ∃ start finish, make twoTables (VirtualMemory.fresh twoTables.paging) [idle] idle =
        some start ∧ (machine twoTables).run start (requested 0x12345678) = some finish ∧
      (AlwaysRoom 1 start (requested 0x12345678) →
        Bounded 1 start (requested 0x12345678)) := by
  have reached : (twoTablesRun (requested 0x12345678)).isSome = true := by
    unfold twoTablesRun make
    rw [twoTables_dims]
    decide +kernel
  obtain ⟨finish, ran⟩ := Option.isSome_iff_exists.mp reached
  obtain ⟨start, made, remaining⟩ := Option.bind_eq_some_iff.mp ran
  exact ⟨start, finish, made, remaining, (run_inFlight twoTables 1 _ [idle] idle start
    finish _ made remaining).1⟩

end PageTableWalker

end ChampSim.Ptw

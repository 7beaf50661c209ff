/-
The search of the scheduler over the reorder buffer.

The check for free registers is made for every instruction that the search
looks at, also for one that is scheduled. Such an instruction holds physical
numbers, which are looked up as architectural ones, and its destinations are
counted again. A source that is named twice is counted twice.
-/

import ChampSim.Core.RegisterRuns

set_option autoImplicit false

namespace ChampSim.Core

open Transition Cache

namespace O3Cpu

variable {Module : Type} (config : Config) (hooks : CoreModules Module)
  (beyond : RegisterAllocator → Nat → Bool)

def fits (alloc : RegisterAllocator) (instr : OooModelInstr) : Bool :=
  decide (sourcesToAllocate beyond alloc instr + instr.destinationRegisters.length ≤
    alloc.countFreeRegisters)

/-- The physical registers that scheduling an instruction takes: one for each source that is not
mapped, however often it is named, and one for each destination. -/
def registersTaken (alloc : RegisterAllocator) (instr : OooModelInstr) : Nat :=
  (instr.sourceRegisters.filter (fun reg => !alloc.isAllocated beyond reg)).dedup.length +
    instr.destinationRegisters.length

def unexecuted (instrs : List OooModelInstr) : Nat := instrs.countP (fun instr => !instr.executed)

/-- The numbers that the search looks up in the frontend table, each with
whether it was renamed. -/
def lookups (time : Nat) : Nat × RegisterAllocator → List OooModelInstr → List (Nat × Bool)
  | _, [] => []
  | search, instr :: rest =>
      if search.1 = 0 then []
      else
        instr.sourceRegisters.map (fun reg => (reg, instr.scheduled)) ++
          (scheduleVisit beyond time search instr).elim []
            (fun visited => lookups time visited.2 rest)

/-- The oldest instruction that is not scheduled, ready, among those that the
scheduler can hold, and with enough free registers. -/
structure Candidate (state : O3Cpu Module) (front : List OooModelInstr) (instr : OooModelInstr)
    (back : List OooModelInstr) : Prop where
  placed : state.rob = front ++ instr :: back
  waits : instr.scheduled = false
  ready : instr.readyTime ≤ state.currentTime
  older : ∀ earlier ∈ front, earlier.scheduled = true
  window : unexecuted front < config.schedulerSize
  enough : registersTaken beyond state.regAllocator instr ≤ state.regAllocator.countFreeRegisters

def SchedulesCandidate (state next : O3Cpu Module) : Prop :=
  ∀ front instr back, Candidate config beyond state front instr back →
    ∃ scheduled, next.rob[front.length]? = some scheduled ∧ scheduled.instrId = instr.instrId ∧
      scheduled.scheduled = true

/-- The frontend table is read at architectural numbers, and at no number that
was renamed. -/
def ReadsArchitectural (state : O3Cpu Module) : Prop :=
  ∀ lookup ∈ lookups beyond state.currentTime (config.schedulerSize, state.regAllocator) state.rob,
    lookup.2 = false ∧ lookup.1 < RegisterAllocator.numArchRegisters

/-- A candidate passes the check and every instruction before it does, and a scheduled instruction
with sources is behind one that fails it or behind as many as the scheduler holds. -/
structure Unhindered (state : O3Cpu Module) : Prop where
  passes : ∀ front instr back, Candidate config beyond state front instr back →
    (∀ earlier ∈ front, fits beyond state.regAllocator earlier = true) ∧
      fits beyond state.regAllocator instr = true
  hidden : ∀ front instr back, state.rob = front ++ instr :: back → instr.scheduled = true →
    instr.sourceRegisters ≠ [] →
      (∃ earlier ∈ front, fits beyond state.regAllocator earlier = false) ∨
        config.schedulerSize ≤ unexecuted front

/-! ### The search -/

theorem unexecuted_cons (instr : OooModelInstr) (rest : List OooModelInstr) :
    unexecuted (instr :: rest) = unexecuted [instr] + unexecuted rest := by
  unfold unexecuted
  rw [← List.countP_append]
  rfl

theorem scheduleVisit_scheduled (time bandwidth : Nat) (alloc : RegisterAllocator)
    (instr : OooModelInstr) (scheduled : instr.scheduled = true) :
    scheduleVisit beyond time (bandwidth, alloc) instr =
      some (instr, (if fits beyond alloc instr then bandwidth - unexecuted [instr] else 0, alloc)) := by
  have one : unexecuted [instr] = if instr.executed then 0 else 1 := by
    unfold unexecuted
    rw [List.countP_singleton]
    cases instr.executed with
    | false => rfl
    | true => rfl
  rw [one]
  unfold scheduleVisit fits
  dsimp only
  by_cases exhausted : bandwidth = 0
  · rw [if_pos exhausted, exhausted, Nat.zero_sub, ite_self]
  · rw [if_neg exhausted]
    by_cases short : alloc.countFreeRegisters <
        sourcesToAllocate beyond alloc instr + instr.destinationRegisters.length
    · rw [if_pos short, decide_eq_false (Nat.not_le.mpr short)]
      rfl
    · rw [if_neg short, decide_eq_true (Nat.not_lt.mp short), scheduled]
      change some (instr, (if instr.executed then bandwidth else bandwidth - 1, alloc)) = _
      cases instr.executed with
      | false => rfl
      | true => rfl

theorem sweep_stopped (time : Nat) (alloc : RegisterAllocator) (rob : List OooModelInstr) :
    Queue.sweep (scheduleVisit beyond time) (0, alloc) rob = some (rob, (0, alloc)) := by
  induction rob with
  | nil => rfl
  | cons instr rest ih =>
      rw [Queue.sweep_cons]
      change Option.map _ (Queue.sweep (scheduleVisit beyond time) (0, alloc) rest) = _
      rw [ih]
      rfl

/-- The search over scheduled instructions goes on while they pass the check. -/
theorem sweep_scheduled (time bandwidth : Nat) (alloc : RegisterAllocator)
    (front : List OooModelInstr) (scheduled : ∀ instr ∈ front, instr.scheduled = true) :
    Queue.sweep (scheduleVisit beyond time) (bandwidth, alloc) front =
      some (front,
        (if front.all (fits beyond alloc) then bandwidth - unexecuted front else 0, alloc)) := by
  induction front generalizing bandwidth with
  | nil => rfl
  | cons instr rest ih =>
      have first := scheduled instr List.mem_cons_self
      have others := fun other member => scheduled other (List.mem_cons_of_mem instr member)
      rw [Queue.sweep_cons, scheduleVisit_scheduled beyond time bandwidth alloc instr first,
        Option.bind_some, ih _ others, Option.map_some, List.all_cons,
        unexecuted_cons instr rest]
      cases fits beyond alloc instr with
      | false =>
          rw [if_neg Bool.false_ne_true, Nat.zero_sub, ite_self, Bool.false_and,
            if_neg Bool.false_ne_true]
      | true => rw [if_pos rfl, Bool.true_and, Nat.sub_sub]

/-- The bandwidth with which the search reaches an instruction behind scheduled
ones. -/
theorem reaches_iff (alloc : RegisterAllocator) (front : List OooModelInstr) (bandwidth : Nat) :
    (if front.all (fits beyond alloc) then bandwidth - unexecuted front else 0) ≠ 0 ↔
      (∀ earlier ∈ front, fits beyond alloc earlier = true) ∧ unexecuted front < bandwidth := by
  rw [← List.all_eq_true]
  cases front.all (fits beyond alloc) with
  | false => simp
  | true => simp [Nat.sub_ne_zero_iff_lt]

/-! ### Candidates -/

theorem candidate_scheduled_iff (state next : O3Cpu Module) (front back : List OooModelInstr)
    (instr : OooModelInstr) (candidate : Candidate config beyond state front instr back)
    (ran : state.scheduleInstruction config beyond = some next) :
    (∃ scheduled, next.rob[front.length]? = some scheduled ∧
        scheduled.instrId = instr.instrId ∧ scheduled.scheduled = true) ↔
      (∀ earlier ∈ front, fits beyond state.regAllocator earlier = true) ∧
        fits beyond state.regAllocator instr = true := by
  obtain ⟨⟨rob, search⟩, swept, same⟩ := Option.map_eq_some_iff.mp ran
  have isRob : next.rob = rob := by rw [← same]
  rw [candidate.placed, Queue.sweep_append, sweep_scheduled beyond _ _ _ front candidate.older,
    Option.bind_some] at swept
  obtain ⟨⟨others, last⟩, remaining, whole⟩ := Option.map_eq_some_iff.mp swept
  have isWhole : rob = front ++ others := (congrArg Prod.fst whole).symm
  rw [isRob, isWhole, List.getElem?_append_right (Nat.le_refl _), Nat.sub_self]
  have reaches := reaches_iff beyond state.regAllocator front config.schedulerSize
  dsimp only at remaining
  by_cases reached : (if front.all (fits beyond state.regAllocator) then
      config.schedulerSize - unexecuted front else 0) = 0
  · rw [reached, sweep_stopped] at remaining
    cases remaining
    constructor
    · rintro ⟨scheduled, present, _id, done⟩
      rw [List.getElem?_cons_zero, Option.some.injEq] at present
      rw [← present, candidate.waits] at done
      cases done
    · rintro ⟨passes, _fits⟩
      exact absurd reached (reaches.mpr ⟨passes, candidate.window⟩)
  · rw [Queue.sweep_cons] at remaining
    obtain ⟨⟨visited, search⟩, visits, later⟩ := Option.bind_eq_some_iff.mp remaining
    obtain ⟨⟨rest, _end⟩, _swept, isOthers⟩ := Option.map_eq_some_iff.mp later
    cases isOthers
    unfold scheduleVisit at visits
    rw [if_neg reached] at visits
    cases passes : fits beyond state.regAllocator instr with
    | false =>
        -- the search ends at the instruction itself
        rw [if_pos (Nat.not_le.mp (of_decide_eq_false passes))] at visits
        cases visits
        constructor
        · rintro ⟨scheduled, present, _id, done⟩
          rw [List.getElem?_cons_zero, Option.some.injEq] at present
          rw [← present, candidate.waits] at done
          cases done
        · rintro ⟨_passes, impossible⟩
          cases impossible
    | true =>
        refine iff_of_true ⟨visited, rfl, ?_⟩ ⟨(reaches.mp reached).1, rfl⟩
        rw [if_neg (Nat.not_lt.mpr (of_decide_eq_true passes))] at visits
        obtain ⟨⟨scheduled, alloc⟩, schedules, isVisited⟩ := Option.map_eq_some_iff.mp visits
        cases isVisited
        have ready : instr.isReady state.currentTime = true := decide_eq_true candidate.ready
        rw [candidate.waits, ready] at schedules
        obtain ⟨sources, destinations, isScheduled⟩ := doScheduling_shape _ _ _ _ schedules
        rw [isScheduled]
        exact ⟨rfl, rfl⟩

/-! ### Lookups -/

theorem lookups_split (time : Nat) (search : Nat × RegisterAllocator) (rob : List OooModelInstr)
    (lookup : Nat × Bool) (member : lookup ∈ lookups beyond time search rob) :
    ∃ front instr back visited reached, rob = front ++ instr :: back ∧
      Queue.sweep (scheduleVisit beyond time) search front = some (visited, reached) ∧
        reached.1 ≠ 0 ∧ lookup.1 ∈ instr.sourceRegisters ∧ lookup.2 = instr.scheduled := by
  induction rob generalizing search with
  | nil => cases member
  | cons instr rest ih =>
      unfold lookups at member
      split at member
      · cases member
      · rename_i remains
        rcases List.mem_append.mp member with mine | later
        · obtain ⟨reg, among, same⟩ := List.mem_map.mp mine
          rw [← same]
          exact ⟨[], instr, rest, [], search, rfl, rfl, remains, among, rfl⟩
        · cases visits : scheduleVisit beyond time search instr with
          | none =>
              rw [visits] at later
              cases later
          | some visited =>
              rw [visits] at later
              obtain ⟨front, other, back, swept, reached, split, ran, more, found⟩ :=
                ih visited.2 later
              refine ⟨instr :: front, other, back, visited.1 :: swept, reached, ?_, ?_, more, found⟩
              · rw [split, List.cons_append]
              · rw [Queue.sweep_cons, visits, Option.bind_some, ran]
                rfl

/-- The lookups of an instruction that the search reaches behind scheduled ones. -/
theorem lookups_reached (time bandwidth : Nat) (alloc : RegisterAllocator)
    (front back : List OooModelInstr) (instr : OooModelInstr)
    (scheduled : ∀ earlier ∈ front, earlier.scheduled = true)
    (passes : ∀ earlier ∈ front, fits beyond alloc earlier = true)
    (window : unexecuted front < bandwidth) :
    ∀ reg ∈ instr.sourceRegisters,
      (reg, instr.scheduled) ∈ lookups beyond time (bandwidth, alloc) (front ++ instr :: back) := by
  intro reg among
  induction front generalizing bandwidth with
  | nil =>
      rw [List.nil_append]
      unfold lookups
      rw [if_neg (Nat.ne_of_gt (Nat.lt_of_le_of_lt (Nat.zero_le _) window))]
      exact List.mem_append_left _ (List.mem_map.mpr ⟨reg, among, rfl⟩)
  | cons first front ih =>
      have count := unexecuted_cons first front
      rw [List.cons_append]
      unfold lookups
      rw [if_neg (Nat.ne_of_gt (Nat.lt_of_le_of_lt (Nat.zero_le _) window)),
        scheduleVisit_scheduled beyond time bandwidth alloc first
          (scheduled first List.mem_cons_self), passes first List.mem_cons_self, if_pos rfl]
      apply List.mem_append_right
      apply ih
      · exact fun earlier member => scheduled earlier (List.mem_cons_of_mem first member)
      · exact fun earlier member => passes earlier (List.mem_cons_of_mem first member)
      · omega

/-! ### Runs -/

theorem RegistersKept.waiting_arch {config : Config} {state : O3Cpu Module}
    {gone : List Registers} {entries : List RobEntry}
    (kept : state.RegistersKept config gone entries) {front back : List OooModelInstr}
    {instr : OooModelInstr} (placed : state.rob = front ++ instr :: back)
    (waits : instr.scheduled = false) : instr.registers.Arch := by
  have tracked := kept.tracked
  rw [placed] at tracked
  exact tracked.waiting_arch waits

theorem scheduleInstruction_iff {state next : O3Cpu Module} {gone : List Registers}
    {entries : List RobEntry} (kept : state.RegistersKept config gone entries)
    (ran : state.scheduleInstruction config beyond = some next) :
    (SchedulesCandidate config beyond state next ∧ ReadsArchitectural config beyond state) ↔
      Unhindered config beyond state := by
  constructor
  · rintro ⟨schedules, reads⟩
    constructor
    · intro front instr back candidate
      exact (candidate_scheduled_iff config beyond state next front back instr candidate ran).mp
        (schedules front instr back candidate)
    · intro front instr back placed scheduled sources
      by_contra seen
      rw [not_or] at seen
      have passes : ∀ earlier ∈ front, fits beyond state.regAllocator earlier = true := by
        intro earlier member
        cases fit : fits beyond state.regAllocator earlier with
        | true => rfl
        | false => exact absurd ⟨earlier, member, fit⟩ seen.1
      have ordered := kept.ordered
      rw [placed] at ordered
      obtain ⟨reg, among⟩ := List.exists_mem_of_ne_nil _ sources
      have looked := lookups_reached beyond state.currentTime config.schedulerSize
        state.regAllocator front back instr (ordered.front_scheduled scheduled) passes
        (Nat.not_le.mp seen.2) reg among
      rw [← placed] at looked
      have renamed := (reads _ looked).1
      dsimp only at renamed
      rw [scheduled] at renamed
      cases renamed
  · intro unhindered
    constructor
    · intro front instr back candidate
      exact (candidate_scheduled_iff config beyond state next front back instr candidate ran).mpr
        (unhindered.passes front instr back candidate)
    · intro lookup member
      obtain ⟨front, instr, back, visited, reached, placed, swept, remains, among, same⟩ :=
        lookups_split beyond _ _ _ lookup member
      cases scheduled : instr.scheduled with
      | false =>
          exact ⟨same.trans scheduled, (kept.waiting_arch placed scheduled).1 lookup.1 among⟩
      | true =>
          have ordered := kept.ordered
          rw [placed] at ordered
          rw [sweep_scheduled beyond _ _ _ front (ordered.front_scheduled scheduled),
            Option.some.injEq] at swept
          have isReached := (congrArg Prod.snd swept).symm
          dsimp only at isReached
          rw [isReached] at remains
          obtain ⟨passes, window⟩ := (reaches_iff beyond _ _ _).mp remains
          rcases unhindered.hidden front instr back placed scheduled
              (List.ne_nil_of_mem among) with ⟨earlier, inFront, fails⟩ | outside
          · rw [passes earlier inFront] at fails
            cases fails
          · omega

/-- Every search of a run schedules its candidate and reads the frontend table at architectural
numbers only, exactly when it is hindered by no scheduled instruction and by no repeated source. -/
theorem histories_scheduleInstruction_iff (l1iBus l1dBus : Channel) (modules : Module)
    (labels : List Step) :
    (∀ front beyond rest before next,
        labels = front ++ .stage (.scheduleInstruction beyond) :: rest →
        (histories config hooks).run (O3Cpu.init config l1iBus l1dBus modules, {}) front =
          some before →
        (histories config hooks).step before (.stage (.scheduleInstruction beyond)) = some next →
        SchedulesCandidate config beyond before.1 next.1 ∧
          ReadsArchitectural config beyond before.1) ↔
      ∀ front beyond rest before,
        labels = front ++ .stage (.scheduleInstruction beyond) :: rest →
        (histories config hooks).run (O3Cpu.init config l1iBus l1dBus modules, {}) front =
          some before →
        Unhindered config beyond before.1 := by
  have kept : ∀ front before,
      (histories config hooks).run (O3Cpu.init config l1iBus l1dBus modules, {}) front =
        some before →
      ∃ gone entries, before.1.RegistersKept config gone entries := by
    intro front before reached
    obtain ⟨dispatched, recorded⟩ := (histories config hooks).exists_recorded_run
      (noteDispatch config) front _ before [] reached
    obtain ⟨_kept, gone, entries, _stream, _retired, registers⟩ :=
      dispatches_kept config hooks l1iBus l1dBus modules front (before, dispatched) recorded
    exact ⟨gone, entries, registers⟩
  constructor
  · intro searches front beyond rest before split reached
    obtain ⟨gone, entries, registers⟩ := kept front before reached
    obtain ⟨next, _others, ran, _after⟩ := registers.scheduleInstruction beyond
    apply (scheduleInstruction_iff config beyond registers ran).mp
    apply searches front beyond rest before (next, before.2) split reached
    apply (Machine.restrict_step_iff _ _ _ _ _).mpr
    exact ⟨trivial, (Machine.record_step_iff _ _ _ _ _).mpr ⟨ran, rfl⟩⟩
  · intro unhindered front beyond rest before next split reached stepped
    obtain ⟨gone, entries, registers⟩ := kept front before reached
    obtain ⟨_continues, recorded⟩ := (Machine.restrict_step_iff _ _ _ _ _).mp stepped
    obtain ⟨moved, _history⟩ := (Machine.record_step_iff _ _ _ _ _).mp recorded
    exact (scheduleInstruction_iff config beyond registers moved).mpr
      (unhindered front beyond rest before split reached)

end O3Cpu

def tightCore : Config := { smallCore with registerFileSize := 2, dispatchWidth := 1 }

def tightInit : O3Cpu Unit := O3Cpu.init tightCore smallBus smallBus ()

def registersAndNone : List Step :=
  [.event (.beginPhase false),
    .event (.read 3 smallMove),
    .event (.read 7 {})]

def beforeScheduling : List Step := (operate (fun _ _ => false)).take 4

private theorem registersAndNone_stops :
    ((histories tightCore quietModules).run (tightInit, {})
        (registersAndNone ++ smallCycles 6 ++ beforeScheduling)).any (fun before =>
      ((histories tightCore quietModules).step before
          (.stage (.scheduleInstruction (fun _ _ => false)))).any (fun next =>
        (before.1.rob.map (fun instr => (instr.scheduled, instr.sourceRegisters)) ==
            [(true, [0]), (false, [])]) &&
          (before.1.rob.drop 1).all (fun instr =>
            decide (instr.readyTime ≤ before.1.currentTime) &&
              decide (O3Cpu.registersTaken (fun _ _ => false) before.1.regAllocator instr ≤
                before.1.regAllocator.countFreeRegisters)) &&
          decide (O3Cpu.unexecuted (before.1.rob.take 1) < tightCore.schedulerSize) &&
          next.1.rob[1]?.all (fun instr => !instr.scheduled))) = true := by
  decide +kernel

/-- The instruction without registers is not scheduled, and a physical number
is looked up, while the other one is executed. -/
theorem histories_scheduleInstruction_registersAndNone :
    ∃ before next,
      (histories tightCore quietModules).run (tightInit, {})
          (registersAndNone ++ smallCycles 6 ++ beforeScheduling) = some before ∧
        (histories tightCore quietModules).step before
          (.stage (.scheduleInstruction (fun _ _ => false))) = some next ∧
        ¬O3Cpu.SchedulesCandidate tightCore (fun _ _ => false) before.1 next.1 ∧
          ¬O3Cpu.ReadsArchitectural tightCore (fun _ _ => false) before.1 := by
  obtain ⟨before, ran, stops⟩ := (Option.any_eq_true _ _).mp registersAndNone_stops
  obtain ⟨next, stepped, stays⟩ := (Option.any_eq_true _ _).mp stops
  simp only [Bool.and_eq_true, decide_eq_true_eq, beq_iff_eq] at stays
  obtain ⟨⟨⟨rob, enough⟩, window⟩, unscheduled⟩ := stays
  obtain ⟨renamed, others, isRob, first, second⟩ := List.map_eq_cons_iff.mp rob
  obtain ⟨instr, rest, isOthers, waits, isRest⟩ := List.map_eq_cons_iff.mp second
  rw [List.map_eq_nil_iff.mp isRest] at isOthers
  rw [isOthers] at isRob
  rw [isRob] at enough window
  have scheduled : renamed.scheduled = true := congrArg Prod.fst first
  have idle : instr.scheduled = false := congrArg Prod.fst waits
  refine ⟨before, next, ran, stepped, ?_, ?_⟩
  · intro schedules
    have due := List.all_eq_true.mp enough instr List.mem_cons_self
    rw [Bool.and_eq_true, decide_eq_true_eq, decide_eq_true_eq] at due
    have older : ∀ earlier ∈ [renamed], earlier.scheduled = true := by
      intro earlier member
      rw [List.mem_singleton.mp member]
      exact scheduled
    obtain ⟨visited, present, _id, done⟩ :=
      schedules [renamed] instr [] ⟨isRob, idle, due.1, older, window, due.2⟩
    rw [List.length_singleton] at present
    rw [present, Option.all_some, done] at unscheduled
    cases unscheduled
  · intro reads
    have sources : renamed.sourceRegisters = [0] := congrArg Prod.snd first
    have looked := O3Cpu.lookups_reached (fun _ _ => false) before.1.currentTime
      tightCore.schedulerSize before.1.regAllocator [] [instr] renamed
      (by
        intro earlier member
        cases member)
      (by
        intro earlier member
        cases member)
      (by decide) 0 (by
        rw [sources]
        exact List.mem_cons_self)
    rw [List.nil_append, ← isRob] at looked
    have architectural := (reads _ looked).1
    dsimp only at architectural
    rw [scheduled] at architectural
    cases architectural

end ChampSim.Core

/-
What the traces of a simulation deliver to its cores.

A log has one entry for each instruction that was read, in order, so the place
of an entry is the id of its instruction. Each trace is as far as the entries
that came from it, and each core has retired, and holds in its pipeline, the
entries that went to it.
-/

import ChampSim.Simulation.Clocks

set_option autoImplicit false

namespace ChampSim.Simulation

open Transition
open ChampSim.Core (O3Cpu TraceInstr OooModelInstr)

structure Delivery where
  cpu : Nat
  index : Nat
  record : TraceInstr
deriving DecidableEq, Repr

def idsFor (log : List Delivery) (cpu : Nat) : List Nat :=
  (List.range log.length).filter (fun id => decide ((log[id]?).any (fun entry => entry.cpu = cpu)))

def recordsFrom (log : List Delivery) (index : Nat) : List TraceInstr :=
  (log.filter (fun entry => decide (entry.index = index))).map Delivery.record

theorem idsFor_concat (log : List Delivery) (entry : Delivery) (cpu : Nat) :
    idsFor (log ++ [entry]) cpu =
      idsFor log cpu ++ if entry.cpu = cpu then [log.length] else [] := by
  unfold idsFor
  rw [List.length_append, List.length_singleton, List.range_succ, List.filter_append]
  congr 1
  · apply List.filter_congr
    intro id member
    rw [List.getElem?_append_left (List.mem_range.mp member)]
  · rw [List.filter_singleton, List.getElem?_concat_length]
    by_cases here : entry.cpu = cpu <;> simp [here]

theorem idsFor_lt (log : List Delivery) (cpu : Nat) : ∀ id ∈ idsFor log cpu, id < log.length := by
  intro id member
  exact List.mem_range.mp (List.mem_of_mem_filter member)

theorem recordsFrom_concat (log : List Delivery) (entry : Delivery) (index : Nat) :
    recordsFrom (log ++ [entry]) index =
      recordsFrom log index ++ if entry.index = index then [entry.record] else [] := by
  unfold recordsFrom
  rw [List.filter_append, List.map_append, List.filter_singleton]
  congr 1
  by_cases here : entry.index = index <;> simp [here]

variable {Module Others Source : Type}

/-- The records that a source yields while it has not ended. -/
inductive Draws (parts : Parts Module Others Source) (first : Source) :
    List TraceInstr → Source → Prop
  | nothing : Draws parts first [] first
  | more {records : List TraceInstr} {source next : Source} {record : TraceInstr} :
      Draws parts first records source → parts.eof source = false →
        parts.call source = some (record, next) → Draws parts first (records ++ [record]) next

/-- A core that has retired, or holds in its pipeline, what has been read for it. -/
def Holds (parts : Parts Module Others Source) (cpu : Nat) (read : List Nat)
    (core : O3Cpu Module) : Prop :=
  ∃ retired, core.Retires (parts.config cpu) { read, retired }

structure Delivered (parts : Parts Module Others Source) (traces : List Source)
    (system : System Module Others Source) (log : List Delivery) : Prop where
  ids : system.instrUniqueId = log.length
  count : system.traces.length = traces.length
  drawn : ∀ index first source, traces[index]? = some first → system.traces[index]? = some source →
    Draws parts first (recordsFrom log index) source
  held : ∀ cpu one, system.cpus[cpu]? = some one → Holds parts cpu (idsFor log cpu) one.core

variable {parts : Parts Module Others Source} {traces : List Source}
  {system next : System Module Others Source} {log : List Delivery}

theorem Holds.congr {cpu : Nat} {read : List Nat} {core other : O3Cpu Module}
    (holds : Holds parts cpu read core) (order : other.order = core.order)
    (numRetired : other.numRetired = core.numRetired) : Holds parts cpu read other := by
  obtain ⟨retired, retires⟩ := holds
  refine ⟨retired, ?_, ?_⟩
  · rw [order]
    exact retires.inOrder
  · rw [numRetired]
    exact retires.counted

/-- A change of one core that leaves its order alone keeps what is delivered. -/
theorem held_modify (cpus : List (Cpu Module)) (cpu : Nat) (change : Cpu Module → Cpu Module)
    (order : ∀ one, (change one).core.order = one.core.order)
    (numRetired : ∀ one, (change one).core.numRetired = one.core.numRetired)
    (held : ∀ cpu one, cpus[cpu]? = some one → Holds parts cpu (idsFor log cpu) one.core) :
    ∀ other one, (cpus.modify cpu change)[other]? = some one →
      Holds parts other (idsFor log other) one.core := by
  intro other one present
  rw [List.getElem?_modify] at present
  obtain ⟨before, found, same⟩ := Option.map_eq_some_iff.mp present
  have kept := held other before found
  rw [← same]
  split
  · exact kept.congr (order before) (numRetired before)
  · exact kept

theorem BusChange.apply_order (core : O3Cpu Module) (change : BusChange) :
    (change.apply core).order = core.order := by
  cases change with
  | serve bus rq pq wq => exact Core.O3Cpu.updateBus_order core bus _
  | answer bus response => exact Core.O3Cpu.updateBus_order core bus _

theorem BusChange.apply_numRetired (core : O3Cpu Module) (change : BusChange) :
    (change.apply core).numRetired = core.numRetired := by
  cases change with
  | serve bus rq pq wq => cases bus <;> rfl
  | answer bus response => cases bus <;> rfl

namespace Delivered

theorem operate (delivered : Delivered parts traces system log) (part : Part) (progress : Int)
    (ran : system.operate parts part = some (progress, next)) :
    Delivered parts traces next log := by
  cases part with
  | core cpu =>
      obtain ⟨one, present, cycled⟩ := Option.bind_eq_some_iff.mp ran
      obtain ⟨⟨returned, core⟩, operated, same⟩ := Option.map_eq_some_iff.mp cycled
      cases same
      refine ⟨delivered.ids, delivered.count, delivered.drawn, ?_⟩
      intro other after found
      by_cases here : cpu = other
      · subst here
        have within := (List.getElem?_eq_some_iff.mp present).1
        change (system.cpus.set cpu _)[cpu]? = _ at found
        rw [List.getElem?_set_self within] at found
        cases found
        obtain ⟨retired, retires⟩ := delivered.held cpu one present
        exact O3Cpu.runStages_retires _ (one.core.tick (parts.config cpu)) _
          ⟨retires.inOrder, retires.counted⟩ (O3Cpu.operate_stages operated)
      · change (system.cpus.set cpu _)[other]? = _ at found
        rw [List.getElem?_set_ne here] at found
        exact delivered.held other after found
  | other index =>
      obtain ⟨operable, present, called⟩ := Option.bind_eq_some_iff.mp ran
      obtain ⟨operated, _called, same⟩ := Option.map_eq_some_iff.mp called
      cases same
      refine ⟨delivered.ids, delivered.count, delivered.drawn, ?_⟩
      have held := delivered.held
      dsimp only
      generalize system.cpus = cpus at held ⊢
      generalize operated.changes = changes
      induction changes generalizing cpus with
      | nil => exact held
      | cons change rest ih =>
          exact ih _ (held_modify cpus change.1 _
            (fun one => BusChange.apply_order one.core change.2)
            (fun one => BusChange.apply_numRetired one.core change.2) held)

theorem operateOn (delivered : Delivered parts traces system log) (part : Part) (passes : Nat)
    (progress : Int) (ran : System.operateLoop parts part passes system = some (progress, next)) :
    Delivered parts traces next log := by
  induction passes generalizing system progress with
  | zero =>
      cases ran
      exact delivered
  | succ passes ih =>
      unfold System.operateLoop at ran
      split at ran
      · obtain ⟨⟨first, middle⟩, operated, remaining⟩ := Option.bind_eq_some_iff.mp ran
        obtain ⟨⟨more, reached⟩, looped, same⟩ := Option.map_eq_some_iff.mp remaining
        cases same
        exact ih (delivered.operate part first operated) more looped
      · cases ran
        exact delivered

theorem operateEach (delivered : Delivered parts traces system log) (order : List Part)
    (progress : Int) (ran : System.operateEach parts order system = some (progress, next)) :
    Delivered parts traces next log := by
  induction order generalizing system progress with
  | nil =>
      cases ran
      exact delivered
  | cons part rest ih =>
      obtain ⟨⟨first, middle⟩, operated, remaining⟩ := Option.bind_eq_some_iff.mp ran
      obtain ⟨⟨more, reached⟩, others, same⟩ := Option.map_eq_some_iff.mp remaining
      cases same
      exact ih (delivered.operateOn part _ first operated) more others

/-! ### Reads -/

theorem readTrace (delivered : Delivered parts traces system log) (cpu index : Nat)
    (source : Source) (present : system.traces[index]? = some source)
    (goesOn : parts.eof source = false)
    (room : ∀ one, system.cpus[cpu]? = some one →
      one.core.inputQueue.length < (parts.config cpu).inQueueSize)
    (ran : system.readTrace parts cpu index source = some next) :
    ∃ record, Delivered parts traces next (log ++ [⟨cpu, index, record⟩]) := by
  obtain ⟨⟨record, after⟩, called, same⟩ := Option.map_eq_some_iff.mp ran
  subst same
  refine ⟨record, ?_, ?_, ?_, ?_⟩
  · rw [List.length_append, List.length_singleton, ← delivered.ids]
  · rw [← delivered.count]
    exact List.length_set
  · intro other first later isFirst isLater
    rw [recordsFrom_concat]
    by_cases here : index = other
    · subst here
      have within := (List.getElem?_eq_some_iff.mp present).1
      change (system.traces.set index _)[index]? = _ at isLater
      rw [List.getElem?_set_self within] at isLater
      cases isLater
      rw [if_pos rfl]
      exact .more (delivered.drawn index first source isFirst present) goesOn called
    · change (system.traces.set index _)[other]? = _ at isLater
      rw [List.getElem?_set_ne here] at isLater
      rw [if_neg here, List.append_nil]
      exact delivered.drawn other first later isFirst isLater
  · intro other one found
    rw [idsFor_concat]
    change (system.cpus.modify cpu _)[other]? = _ at found
    rw [List.getElem?_modify] at found
    obtain ⟨before, isBefore, same⟩ := Option.map_eq_some_iff.mp found
    obtain ⟨retired, retires⟩ := delivered.held other before isBefore
    by_cases here : cpu = other
    · subst here
      rw [if_pos rfl] at same
      rw [if_pos rfl, ← same, ← delivered.ids]
      refine ⟨retired, ?_, retires.counted⟩
      have moved := retires.inOrder.read system.instrUniqueId (by
        intro earlier member
        rw [delivered.ids]
        exact idsFor_lt log cpu earlier member) (by
        change (Core.ids before.core.inputQueue).length < _
        unfold Core.ids
        rw [List.length_map]
        exact room before isBefore)
      unfold O3Cpu.order Core.ids at moved ⊢
      dsimp only at moved ⊢
      rw [List.map_append]
      exact moved
    · rw [if_neg here] at same
      rw [if_neg here, List.append_nil, ← same]
      exact ⟨retired, retires⟩

/-- What is read while one phase runs goes where the phase says. -/
def Assigned (traceIndex : List Nat) (log : List Delivery) : Prop :=
  ∀ entry ∈ log, traceIndex[entry.cpu]? = some entry.index

theorem fillQueue (cpu index count : Nat) (traceIndex : List Nat)
    (assigned : traceIndex[cpu]? = some index)
    (system next : System Module Others Source) (log : List Delivery)
    (delivered : Delivered parts traces system log)
    (room : ∀ one, system.cpus[cpu]? = some one →
      one.core.inputQueue.length + count ≤ (parts.config cpu).inQueueSize)
    (ran : system.fillQueue parts cpu index count = some next) :
    ∃ more, Delivered parts traces next (log ++ more) ∧ Assigned traceIndex more := by
  induction count generalizing system log with
  | zero =>
      cases ran
      refine ⟨[], ?_, fun entry impossible => absurd impossible List.not_mem_nil⟩
      rw [List.append_nil]
      exact delivered
  | succ count ih =>
      obtain ⟨source, present, read⟩ := Option.bind_eq_some_iff.mp ran
      split at read
      · cases read
        refine ⟨[], ?_, fun entry impossible => absurd impossible List.not_mem_nil⟩
        rw [List.append_nil]
        exact delivered
      · rename_i goesOn
        obtain ⟨middle, first, remaining⟩ := Option.bind_eq_some_iff.mp read
        obtain ⟨record, now⟩ := delivered.readTrace cpu index source present
          (Bool.not_eq_true _ |>.mp goesOn)
          (fun one found => by
            have fits := room one found
            omega) first
        obtain ⟨called, _called, same⟩ := Option.map_eq_some_iff.mp first
        obtain ⟨more, later, isAssigned⟩ := ih middle _ now (by
          intro one found
          rw [← same] at found
          change (system.cpus.modify cpu _)[cpu]? = _ at found
          rw [List.getElem?_modify_eq] at found
          obtain ⟨before, isBefore, changed⟩ := Option.map_eq_some_iff.mp found
          have fits := room before isBefore
          rw [← changed]
          dsimp only
          rw [List.length_append, List.length_singleton]
          omega) remaining
        refine ⟨⟨cpu, index, record⟩ :: more, ?_, ?_⟩
        · rw [List.append_cons]
          exact later
        · intro entry member
          rcases List.mem_cons.mp member with same | among
          · rw [same]
            exact assigned
          · exact isAssigned entry among

theorem readTraces (delivered : Delivered parts traces system log) (traceIndex : List Nat)
    (ran : system.readTraces parts traceIndex = some next) :
    ∃ more, Delivered parts traces next (log ++ more) ∧ Assigned traceIndex more := by
  apply Queue.foldlM_invariant (System.readFor parts traceIndex)
    (fun reached => ∃ more, Delivered parts traces reached (log ++ more) ∧
      Assigned traceIndex more) _ ?_ system next ?_ ran
  · intro reached cpu _member later before step
    obtain ⟨some, delivered, assignedSoFar⟩ := before
    obtain ⟨index, isIndex, found⟩ := Option.bind_eq_some_iff.mp step
    obtain ⟨trace, _trace, has⟩ := Option.bind_eq_some_iff.mp found
    obtain ⟨one, isOne, filled⟩ := Option.bind_eq_some_iff.mp has
    obtain ⟨more, now, assigned⟩ := fillQueue cpu index _ traceIndex isIndex reached later _
      delivered (by
        intro other found
        rw [isOne] at found
        cases found
        obtain ⟨retired, retires⟩ := delivered.held cpu one isOne
        have within := retires.inOrder.within.input
        change (Core.ids one.core.inputQueue).length ≤ _ at within
        unfold Core.ids at within
        rw [List.length_map] at within
        omega) filled
    refine ⟨some ++ more, ?_, ?_⟩
    · rw [← List.append_assoc]
      exact now
    · intro entry member
      rcases List.mem_append.mp member with earlier | newer
      · exact assignedSoFar entry earlier
      · exact assigned entry newer
  · refine ⟨[], ?_, fun entry impossible => absurd impossible List.not_mem_nil⟩
    rw [List.append_nil]
    exact delivered

theorem doCycle (delivered : Delivered parts traces system log) (traceIndex : List Nat)
    (order : List Part) (progress : Int)
    (ran : system.doCycle parts traceIndex order = some (progress, next)) :
    ∃ more, Delivered parts traces next (log ++ more) ∧ Assigned traceIndex more := by
  unfold System.doCycle at ran
  split at ran
  · obtain ⟨⟨first, operated⟩, operates, remaining⟩ := Option.bind_eq_some_iff.mp ran
    obtain ⟨last, reads, same⟩ := Option.map_eq_some_iff.mp remaining
    cases same
    exact (delivered.operateEach order progress operates).readTraces traceIndex reads
  · cases ran

/-! ### Phases -/

theorem beginPart (delivered : Delivered parts traces system log) (isWarmup : Bool) (part : Part) :
    Delivered parts traces (system.beginPart parts isWarmup part) log := by
  cases part with
  | core cpu =>
      exact ⟨delivered.ids, delivered.count, delivered.drawn,
        held_modify system.cpus cpu _ (fun _one => rfl) (fun _one => rfl) delivered.held⟩
  | other index =>
      unfold System.beginPart
      dsimp only
      cases system.operables[index]? with
      | none => exact delivered
      | some operable =>
          exact ⟨delivered.ids, delivered.count, delivered.drawn, delivered.held⟩

theorem endPart (delivered : Delivered parts traces system log) (finished : Nat) (part : Part) :
    Delivered parts traces (system.endPart parts finished part) log := by
  cases part with
  | core cpu =>
      refine ⟨delivered.ids, delivered.count, delivered.drawn,
        held_modify system.cpus cpu _ ?_ ?_ delivered.held⟩
      · intro one
        unfold Cpu.endPhase
        dsimp only
        split <;> rfl
      · intro one
        unfold Cpu.endPhase
        dsimp only
        split <;> rfl
  | other index =>
      unfold System.endPart
      dsimp only
      cases system.operables[index]? with
      | none => exact delivered
      | some operable =>
          exact ⟨delivered.ids, delivered.count, delivered.drawn, delivered.held⟩

theorem foldl {Turn : Type} (turn : System Module Others Source → Turn → System Module Others Source)
    (each : ∀ reached item, Delivered parts traces reached log →
      Delivered parts traces (turn reached item) log) (items : List Turn)
    (delivered : Delivered parts traces system log) :
    Delivered parts traces (items.foldl turn system) log := by
  induction items generalizing system with
  | nil => exact delivered
  | cons item rest ih => exact ih (each system item delivered)

theorem start (delivered : Delivered parts traces system log) (info : PhaseInfo) :
    Delivered parts traces (Phase.start parts info system).system log :=
  delivered.foldl _ (fun _reached part before => before.beginPart info.isWarmup part) _

theorem afterCycle (delivered : Delivered parts traces system log) (info : PhaseInfo)
    (phase : Phase Module Others Source) (progress : Int) :
    Delivered parts traces (phase.afterCycle parts info progress system).system log := by
  unfold Phase.afterCycle
  dsimp only
  split
  · exact delivered
  · exact delivered.foldl _ (fun _reached finished before =>
      before.foldl _ (fun _system part still => still.endPart finished part) _) _

end Delivered

/-! ### Whole runs -/

/-- What has been delivered, each instruction as some phase assigns it. -/
structure Delivering (parts : Parts Module Others Source) (traces : List Source)
    (phases : List PhaseInfo) (main : Main Module Others Source) (log : List Delivery) : Prop where
  delivered : Delivered parts traces main.current log
  assigned : ∀ entry ∈ log, ∃ info ∈ phases, info.traceIndex[entry.cpu]? = some entry.index
  pending : ∀ info ∈ main.phases, info ∈ phases
  running : ∀ running, main.phase = some running → running.1 ∈ phases

variable {phases : List PhaseInfo}

theorem Delivering.step {main after : Main Module Others Source} {label : Label}
    (delivering : Delivering parts traces phases main log)
    (stepped : main.step parts label = some after) :
    ∃ more, Delivering parts traces phases after (log ++ more) := by
  have delivered := delivering.delivered
  unfold Main.current at delivered
  cases label with
  | beginPhase =>
      obtain ⟨between, info, rest, waiting, same⟩ := Main.step_beginPhase parts stepped
      subst same
      rw [between] at delivered
      have pending := delivering.pending
      rw [waiting] at pending
      refine ⟨[], ?_, ?_, ?_, ?_⟩
      · rw [List.append_nil]
        exact delivered.start info
      · rw [List.append_nil]
        exact delivering.assigned
      · intro other member
        exact pending other (List.mem_cons_of_mem info member)
      · intro running same
        cases same
        exact pending info List.mem_cons_self
  | cycle order =>
      obtain ⟨⟨info, phase⟩, running, cycled⟩ := Option.bind_eq_some_iff.mp stepped
      obtain ⟨passed, passes, same⟩ := Option.map_eq_some_iff.mp cycled
      subst same
      rw [running] at delivered
      have among := delivering.running (info, phase) running
      unfold Phase.step at passes
      split at passes
      · cases passes
      · obtain ⟨⟨progress, system⟩, ran, same⟩ := Option.map_eq_some_iff.mp passes
        subst same
        have ticked : Delivered parts traces
            (phase.system.tick (phase.system.timeQuantum parts)) log :=
          ⟨delivered.ids, delivered.count, delivered.drawn, delivered.held⟩
        obtain ⟨more, now, assigned⟩ := ticked.doCycle info.traceIndex order progress ran
        refine ⟨more, now.afterCycle info phase progress, ?_, delivering.pending, ?_⟩
        · intro entry member
          rcases List.mem_append.mp member with earlier | newer
          · exact delivering.assigned entry earlier
          · exact ⟨info, among, assigned entry newer⟩
        · intro other same
          cases same
          exact among
  | endPhase =>
      obtain ⟨⟨info, phase⟩, running, ended⟩ := Option.bind_eq_some_iff.mp stepped
      rw [running] at delivered
      dsimp only at ended
      split at ended
      · obtain ⟨stats, _named, same⟩ := Option.map_eq_some_iff.mp ended
        subst same
        refine ⟨[], ?_, ?_, delivering.pending, ?_⟩
        · rw [List.append_nil]
          exact delivered
        · rw [List.append_nil]
          exact delivering.assigned
        · intro other impossible
          cases impossible
      · cases ended

theorem mains_delivering {cpus : List (Cpu Module)} {operables : List Operable} {others : Others}
    {traces : List Source} {phases : List PhaseInfo}
    (fresh : ∀ cpu one, cpus[cpu]? = some one → ∃ l1iBus l1dBus modules,
      one.core = O3Cpu.init (parts.config cpu) l1iBus l1dBus modules)
    (labels : List Label) (reached : Main Module Others Source)
    (ran : (mains parts).run (Main.init cpus operables others traces phases) labels =
      some reached) :
    ∃ log, Delivering parts traces phases reached log := by
  apply (mains parts).run_invariant
    (fun main => ∃ log, Delivering parts traces phases main log) ?_ labels _ reached ?_ ran
  · intro main label next before stepped
    obtain ⟨log, delivering⟩ := before
    obtain ⟨more, now⟩ := delivering.step stepped
    exact ⟨log ++ more, now⟩
  · refine ⟨[], ⟨rfl, rfl, ?_, ?_⟩, ?_, fun _info member => member, ?_⟩
    · intro index first source isFirst isSource
      change traces[index]? = _ at isSource
      rw [isFirst] at isSource
      cases isSource
      exact .nothing
    · intro cpu one present
      obtain ⟨l1iBus, l1dBus, modules, isInit⟩ := fresh cpu one present
      rw [isInit]
      exact ⟨[], O3Cpu.init_inOrder (parts.config cpu) l1iBus l1dBus modules, rfl⟩
    · intro entry impossible
      cases impossible
    · intro running impossible
      cases impossible

/-- In every run of the simulator, each trace is read in order, each instruction
that is read goes to one core as some phase assigns it, and each core has
retired and holds in its pipeline exactly the instructions that went to it, in
order, with every buffer within its size. -/
theorem mains_programOrder (parts : Parts Module Others Source) (cpus : List (Cpu Module))
    (operables : List Operable) (others : Others) (traces : List Source) (phases : List PhaseInfo)
    (fresh : ∀ cpu one, cpus[cpu]? = some one → ∃ l1iBus l1dBus modules,
      one.core = O3Cpu.init (parts.config cpu) l1iBus l1dBus modules)
    (labels : List Label) (reached : Main Module Others Source)
    (ran : (mains parts).run (Main.init cpus operables others traces phases) labels =
      some reached) :
    ∃ log : List Delivery, reached.current.instrUniqueId = log.length ∧
      (∀ index first source, traces[index]? = some first →
        reached.current.traces[index]? = some source →
          Draws parts first (recordsFrom log index) source) ∧
      (∀ entry ∈ log, ∃ info ∈ phases, info.traceIndex[entry.cpu]? = some entry.index) ∧
      ∀ cpu one, reached.current.cpus[cpu]? = some one → ∃ retired,
        retired ++ one.core.order.pipeline = idsFor log cpu ∧
          retired.length = one.core.numRetired ∧ one.core.order.Within (parts.config cpu) := by
  obtain ⟨log, delivering⟩ := mains_delivering fresh labels reached ran
  refine ⟨log, delivering.delivered.ids, delivering.delivered.drawn, delivering.assigned, ?_⟩
  intro cpu one present
  obtain ⟨retired, retires⟩ := delivering.delivered.held cpu one present
  exact ⟨retired, retires.inOrder.stream, retires.counted, retires.inOrder.within⟩

private theorem smallMain_reads :
    ((mains (smallParts 2)).run smallMain
      (.beginPhase :: List.replicate 10 (.cycle smallOrder) ++ [.endPhase])).any (fun reached =>
        decide (reached.current.instrUniqueId = 22)) = true := by
  decide +kernel

theorem mains_programOrder_smallMain :
    ∃ reached, (mains (smallParts 2)).run smallMain
        (.beginPhase :: List.replicate 10 (.cycle smallOrder) ++ [.endPhase]) = some reached ∧
      reached.current.instrUniqueId = 22 ∧
      ∃ log : List Delivery, reached.current.instrUniqueId = log.length ∧
        (∀ entry ∈ log, ∃ info ∈ [smallPhase], info.traceIndex[entry.cpu]? = some entry.index) ∧
        ∀ cpu one, reached.current.cpus[cpu]? = some one → ∃ retired,
          retired ++ one.core.order.pipeline = idsFor log cpu ∧
            retired.length = one.core.numRetired := by
  obtain ⟨reached, ran, reads⟩ := (Option.any_eq_true _ _).mp smallMain_reads
  obtain ⟨log, ids, -, assigned, held⟩ := mains_programOrder (smallParts 2) [smallCpu]
    [smallOperable] () [smallTrace] [smallPhase] (by
      intro cpu one present
      cases cpu with
      | zero =>
          cases present
          exact ⟨Core.smallBus, Core.smallBus, (), rfl⟩
      | succ cpu => cases present) _ reached ran
  refine ⟨reached, ran, of_decide_eq_true reads, log, ids, assigned, ?_⟩
  intro cpu one present
  obtain ⟨retired, stream, counted, -⟩ := held cpu one present
  exact ⟨retired, stream, counted⟩

end ChampSim.Simulation

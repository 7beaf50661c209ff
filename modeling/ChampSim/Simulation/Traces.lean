/-
A simulation whose traces are files that are opened again when they end.
-/

import ChampSim.Simulation.Delivery
import ChampSim.Trace.Repeatable

set_option autoImplicit false

namespace ChampSim.Simulation

open Transition
open ChampSim.Core (O3Cpu TraceInstr)
open Trace (TraceFormat Repeatable)
open Trace.BulkTracereader (targeted)

variable {Module Others Record : Type}

structure Repeats (format : TraceFormat Record) (parts : Parts Module Others (Repeatable Record)) :
    Prop where
  eof : parts.eof = Repeatable.eof
  call : parts.call = Repeatable.call format

theorem draws_rounds {format : TraceFormat Record}
    {parts : Parts Module Others (Repeatable Record)} (repeats : Repeats format parts) {cpu : Byte}
    {records : List Record} (filled : records ≠ []) {drawn : List TraceInstr}
    {source : Repeatable Record}
    (draws : Draws parts (Repeatable.start format cpu records) drawn source) :
    Repeatable.Turned format cpu records drawn.length source ∧ ∀ place < drawn.length,
      drawn[place]? =
        (targeted format cpu records)[place % Repeatable.perRound records]? := by
  induction draws with
  | nothing =>
      refine ⟨Repeatable.start_turned, ?_⟩
      intro place impossible
      cases impossible
  | @more earlier source next record _before _runs called ih =>
      obtain ⟨turned, rounds⟩ := ih
      obtain ⟨retval, after, calls, yields, further⟩ := turned.call filled
      rw [repeats.call, calls] at called
      cases called
      rw [List.length_append, List.length_singleton]
      refine ⟨further, ?_⟩
      intro place within
      rcases Nat.lt_or_eq_of_le (Nat.le_of_lt_succ within) with old | latest
      · rw [List.getElem?_append_left old]
        exact rounds place old
      · rw [latest, List.getElem?_concat_length]
        exact yields.symm

/-- In every run of the simulator over traces that repeat and are not empty, the
instructions a core has retired and holds are, one by one, those that the rounds
over the traces yield: no instruction is lost, read twice or out of place where
a trace starts again. -/
theorem mains_rounds (format : TraceFormat Record)
    (parts : Parts Module Others (Repeatable Record)) (repeats : Repeats format parts)
    (cpus : List (Cpu Module)) (operables : List Operable) (others : Others)
    (files : List (Byte × List Record)) (phases : List PhaseInfo)
    (filled : ∀ file ∈ files, file.2 ≠ [])
    (fresh : ∀ cpu one, cpus[cpu]? = some one → ∃ l1iBus l1dBus modules,
      one.core = O3Cpu.init (parts.config cpu) l1iBus l1dBus modules)
    (labels : List Label) (reached : Main Module Others (Repeatable Record))
    (ran : (mains parts).run (Main.init cpus operables others
      (files.map (fun file => Repeatable.start format file.1 file.2)) phases) labels =
        some reached) :
    ∃ log : List Delivery, reached.current.instrUniqueId = log.length ∧
      (∀ cpu one, reached.current.cpus[cpu]? = some one → ∃ retired,
        retired ++ one.core.order.pipeline = idsFor log cpu ∧
          retired.length = one.core.numRetired) ∧
      ∀ (index : Nat) (file : Byte × List Record), files[index]? = some file →
        ∀ place < (recordsFrom log index).length, (recordsFrom log index)[place]? =
          (targeted format file.1 file.2)[place % Repeatable.perRound file.2]? := by
  obtain ⟨log, delivering⟩ := mains_delivering fresh labels reached ran
  refine ⟨log, delivering.delivered.ids, ?_, ?_⟩
  · intro cpu one present
    obtain ⟨retired, retires⟩ := delivering.delivered.held cpu one present
    exact ⟨retired, retires.inOrder.stream, retires.counted⟩
  · intro index file present place within
    have started : (files.map (fun file => Repeatable.start format file.1 file.2))[index]? =
        some (Repeatable.start format file.1 file.2) := by
      rw [List.getElem?_map, present]
      rfl
    have inside := (List.getElem?_eq_some_iff.mp started).1
    rw [← delivering.delivered.count] at inside
    have draws := delivering.delivered.drawn index _ _ started (List.getElem?_eq_getElem inside)
    exact (draws_rounds repeats (filled file (List.mem_of_getElem? present)) draws).2 place within

def smallRepeats : Parts Unit Unit (Repeatable Trace.InputInstr) where
  config := (smallParts 2).config
  cpuView := (smallParts 2).cpuView
  hooks := Core.quietModules
  beyond _ _ _ := false
  operate := (smallParts 2).operate
  beginPhase _ _ others := others
  endPhase _ _ others := others
  eof := Repeatable.eof
  call := Repeatable.call Trace.inputInstr
  positive := (smallParts 2).positive
  numbered := (smallParts 2).numbered
  viewed := (smallParts 2).viewed

def smallFile : Byte × List Trace.InputInstr :=
  (0, [Repeatable.plainRecord 0, Repeatable.plainRecord 4, Repeatable.plainRecord 8])

private theorem smallRepeats_reads :
    ((mains smallRepeats).run (Main.init [smallCpu] [smallOperable] ()
        [Repeatable.start Trace.inputInstr smallFile.1 smallFile.2] [smallPhase])
      (.beginPhase :: List.replicate 2 (.cycle smallOrder))).any (fun reached =>
        decide (reached.current.instrUniqueId = 6)) = true := by
  decide +kernel

theorem mains_rounds_smallRepeats :
    ∃ reached, (mains smallRepeats).run (Main.init [smallCpu] [smallOperable] ()
        [Repeatable.start Trace.inputInstr smallFile.1 smallFile.2] [smallPhase])
          (.beginPhase :: List.replicate 2 (.cycle smallOrder)) = some reached ∧
      reached.current.instrUniqueId = 6 ∧
      ∃ log : List Delivery, reached.current.instrUniqueId = log.length ∧
        ∀ place < (recordsFrom log 0).length, (recordsFrom log 0)[place]? =
          (targeted Trace.inputInstr smallFile.1 smallFile.2)[place %
            Repeatable.perRound smallFile.2]? := by
  obtain ⟨reached, ran, reads⟩ := (Option.any_eq_true _ _).mp smallRepeats_reads
  obtain ⟨log, ids, -, rounds⟩ := mains_rounds Trace.inputInstr smallRepeats ⟨rfl, rfl⟩ [smallCpu]
    [smallOperable] () [smallFile] [smallPhase] (by
      intro file member
      rw [List.mem_singleton.mp member]
      exact List.cons_ne_nil _ _) (by
      intro cpu one present
      cases cpu with
      | zero =>
          cases present
          exact ⟨Core.smallBus, Core.smallBus, (), rfl⟩
      | succ cpu => cases present) _ reached ran
  exact ⟨reached, ran, of_decide_eq_true reads, log, ids, rounds 0 smallFile rfl⟩

end ChampSim.Simulation

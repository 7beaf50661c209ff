/-
The phases of a simulation, and the run of them all.

A phase goes on cycle by cycle until it is complete for every core. It is
aborted when nothing has moved for too many cycles, or when some core has
retired too little over a long period. Between two phases the operables begin
the next one. The printed messages and the statistics of caches and memory are
left out.
-/

import ChampSim.Simulation.System

set_option autoImplicit false

namespace ChampSim.Simulation

open Transition

def deadlockCycle : Nat := 500

def livelockPeriod : Nat := 10000000

structure PhaseInfo where
  name : String
  isWarmup : Bool
  length : Int
  traceIndex : List Nat
  traceNames : List String
deriving DecidableEq, Repr

structure PhaseStats where
  name : String
  traceNames : List String
  simCpuStats : List CpuStats
  roiCpuStats : List CpuStats
deriving DecidableEq, Repr

namespace System

variable {Module Others Source : Type} (parts : Parts Module Others Source)

/-- The first loop of `do_phase`, for one operable. -/
def beginPart (isWarmup : Bool) (system : System Module Others Source) :
    Part → System Module Others Source
  | .core cpu =>
      { system with
        cpus := system.cpus.modify cpu (Cpu.beginPhase (parts.config cpu) isWarmup) }
  | .other index =>
      (system.operables[index]?).elim system fun operable =>
        { system with
          operables := system.operables.set index { operable with warmup := isWarmup }
          others := parts.beginPhase index { operable with warmup := isWarmup } system.others }

def endPart (finished : Nat) (system : System Module Others Source) :
    Part → System Module Others Source
  | .core cpu =>
      { system with
        cpus := system.cpus.modify cpu
          (Cpu.endPhase (parts.config cpu) (decide (finished = (parts.config cpu).cpu))) }
  | .other index =>
      (system.operables[index]?).elim system fun _operable =>
        { system with others := parts.endPhase index finished system.others }

def endPhase (system : System Module Others Source) (finished : Nat) :
    System Module Others Source :=
  (system.operableView parts).foldl (endPart parts finished) system

/-- `time_quantum`, from `duration::max()` down. -/
def timeQuantum (system : System Module Others Source) : Nat :=
  ((system.operableView parts).map (system.clockPeriod parts)).foldl min (2 ^ 63 - 1)

def tick (system : System Module Others Source) (amount : Nat) : System Module Others Source :=
  { system with now := system.now + amount }

def viewedCpus (system : System Module Others Source) : List (Cpu Module) :=
  (parts.cpuView system.cpus.length).filterMap (fun cpu => system.cpus[cpu]?)

def simInstrs (system : System Module Others Source) : List Int := system.cpus.map Cpu.simInstr

end System

/-! ### One phase -/

/-- `do_phase` before its loop reads its condition. -/
structure Phase (Module Others Source : Type) where
  system : System Module Others Source
  stalledCycle : Nat := 0
  livelockTimer : Nat := 0
  livelockInstr : List Nat
  phaseComplete : List Bool
  aborted : Bool := false

/-- What a core has retired since the last check, as the unsigned difference. -/
def livelockRetired (simInstr : Int) (livelockInstr : Nat) : Nat :=
  ((simInstr - livelockInstr) % 2 ^ 64).toNat

/-- The comparison of the instructions per cycle with 0.01. -/
def isLivelock (simInstr : Int) (livelockInstr : Nat) : Bool :=
  decide (livelockRetired simInstr livelockInstr * 100 ≤ livelockPeriod)

namespace Phase

variable {Module Others Source : Type} (parts : Parts Module Others Source)

def start (info : PhaseInfo) (system : System Module Others Source) :
    Phase Module Others Source where
  system := (system.operableView parts).foldl (System.beginPart parts info.isWarmup) system
  livelockInstr := List.replicate system.cpus.length 0
  phaseComplete := List.replicate system.cpus.length false

def isComplete (phase : Phase Module Others Source) : Bool := phase.phaseComplete.all id

/-- The livelock check: whether some core is in a livelock, with the timer and
the instructions after it. -/
def checkLivelock (phase : Phase Module Others Source) (simInstrs : List Int) :
    Bool × Nat × List Nat :=
  if livelockPeriod ≤ phase.livelockTimer + 1 then
    ((List.zipWith isLivelock simInstrs phase.livelockInstr).any id, 0,
      simInstrs.map (fun simInstr => (simInstr % 2 ^ 64).toNat))
  else (false, phase.livelockTimer + 1, phase.livelockInstr)

/-- `next_phase_complete`. -/
def nextComplete (info : PhaseInfo) (phase : Phase Module Others Source)
    (system : System Module Others Source) : List Bool :=
  List.zipWith (fun complete simInstr =>
      complete || system.traces.any parts.eof || decide (info.length ≤ simInstr))
    phase.phaseComplete system.simInstrs

def finishing (before after : List Bool) : List Nat :=
  (parts.cpuView before.length).filter (fun cpu => decide (after[cpu]? ≠ before[cpu]?))

def countStalled (phase : Phase Module Others Source) (progress : Int) : Nat :=
  if progress = 0 then phase.stalledCycle + 1 else 0

/-- The condition of `abort`. -/
def Aborts (phase : Phase Module Others Source) (progress : Int)
    (system : System Module Others Source) : Prop :=
  deadlockCycle ≤ phase.countStalled progress ∨ (phase.checkLivelock system.simInstrs).1 = true

instance (phase : Phase Module Others Source) (progress : Int)
    (system : System Module Others Source) : Decidable (phase.Aborts progress system) :=
  inferInstanceAs (Decidable (_ ∨ _))

/-- The rest of a pass after `do_cycle`. -/
def afterCycle (info : PhaseInfo) (phase : Phase Module Others Source) (progress : Int)
    (system : System Module Others Source) : Phase Module Others Source :=
  let next := phase.nextComplete parts info system
  if phase.Aborts progress system then
    { phase with system, aborted := true }
  else
    { system := (finishing parts phase.phaseComplete next).foldl (System.endPhase parts) system
      stalledCycle := phase.countStalled progress
      livelockTimer := (phase.checkLivelock system.simInstrs).2.1
      livelockInstr := (phase.checkLivelock system.simInstrs).2.2
      phaseComplete := next }

/-- One pass of the loop, or `none` where the loop has ended. -/
def step (info : PhaseInfo) (phase : Phase Module Others Source) (order : List Part) :
    Option (Phase Module Others Source) :=
  if phase.aborted || phase.isComplete then none
  else
    ((phase.system.tick (phase.system.timeQuantum parts)).doCycle parts info.traceIndex order).map
      fun (progress, system) => phase.afterCycle parts info progress system

def stats (info : PhaseInfo) (phase : Phase Module Others Source) : Option PhaseStats :=
  (info.traceIndex.mapM (fun index => info.traceNames[index]?)).map fun traceNames =>
    { name := info.name
      traceNames
      simCpuStats := (phase.system.viewedCpus parts).map Cpu.simStats
      roiCpuStats := (phase.system.viewedCpus parts).map Cpu.roiStats }

end Phase

/-- The loop of `do_phase`, pass by pass. -/
def passes {Module Others Source : Type} (parts : Parts Module Others Source)
    (info : PhaseInfo) : Machine (Phase Module Others Source) (List Part) where
  step := Phase.step parts info

/-! ### All phases -/

inductive Label where
  | beginPhase
  | cycle (order : List Part)
  | endPhase

/-- `champsim::main` after its operables are initialized: between two phases, or in one. -/
structure Main (Module Others Source : Type) where
  system : System Module Others Source
  phase : Option (PhaseInfo × Phase Module Others Source) := none
  phases : List PhaseInfo
  results : List PhaseStats := []

namespace Main

variable {Module Others Source : Type} (parts : Parts Module Others Source)

def init (cpus : List (Cpu Module)) (operables : List Operable) (others : Others)
    (traces : List Source) (phases : List PhaseInfo) : Main Module Others Source where
  system := { cpus, operables, others, traces }
  phases

def step (main : Main Module Others Source) :
    Label → Option (Main Module Others Source)
  | .beginPhase =>
      match main.phase, main.phases with
      | none, info :: phases =>
          some { main with
            phase := some (info, Phase.start parts info main.system)
            phases }
      | _, _ => none
  | .cycle order =>
      main.phase.bind fun (info, phase) =>
        (phase.step parts info order).map fun next =>
          { main with phase := some (info, next) }
  | .endPhase =>
      main.phase.bind fun (info, phase) =>
        if phase.isComplete && !phase.aborted then
          (phase.stats parts info).map fun stats =>
            { main with
              system := phase.system
              phase := none
              results :=
                if info.isWarmup then main.results else main.results ++ [stats] }
        else none

theorem step_beginPhase {main next : Main Module Others Source}
    (stepped : main.step parts .beginPhase = some next) :
    main.phase = none ∧ ∃ info rest, main.phases = info :: rest ∧
      next = { main with
        phase := some (info, Phase.start parts info main.system)
        phases := rest } := by
  cases running : main.phase with
  | some phase =>
      simp [step, running] at stepped
  | none =>
      cases pending : main.phases with
      | nil =>
          simp [step, running, pending] at stepped
      | cons info rest =>
          simp only [step, running, pending, Option.some.injEq] at stepped
          exact ⟨rfl, info, rest, rfl, stepped.symm⟩

def current (main : Main Module Others Source) : System Module Others Source :=
  main.phase.elim main.system (fun running => running.2.system)

end Main

def mains {Module Others Source : Type} (parts : Parts Module Others Source) :
    Machine (Main Module Others Source) Label where
  step := Main.step parts

/-! ### A small system -/

/-- One core, one other operable that does nothing, and traces that are lists. -/
def smallParts (fetchWidth : Nat) : Parts Unit Unit (List Core.TraceInstr) where
  config cpu := { Core.smallCore with cpu, clockPeriod := 2, fetchWidth }
  cpuView count := (List.range count).reverse
  hooks := Core.quietModules
  beyond _ _ _ := false
  operate _ _ _ others := some { progress := 0, changes := [], others }
  beginPhase _ _ others := others
  endPhase _ _ others := others
  eof source := source.isEmpty
  call
    | [] => none
    | record :: rest => some (record, rest)
  positive _ := Nat.succ_pos _
  numbered _ := rfl
  viewed count := List.reverse_perm (List.range count)

def smallCpu : Cpu Unit where
  core := Core.O3Cpu.init (smallParts 2 |>.config 0) Core.smallBus Core.smallBus ()

def smallOperable : Operable where
  clockPeriod := 3
  positive := Nat.succ_pos _

def smallTrace : List Core.TraceInstr := List.replicate 60 {}

def smallSystem : System Unit Unit (List Core.TraceInstr) where
  cpus := [smallCpu]
  operables := [smallOperable]
  others := ()
  traces := [smallTrace]

def smallPhase : PhaseInfo where
  name := "Simulation"
  isWarmup := false
  length := 2
  traceIndex := [0]
  traceNames := ["trace"]

def smallMain : Main Unit Unit (List Core.TraceInstr) :=
  Main.init [smallCpu] [smallOperable] () [smallTrace] [smallPhase]

def smallOrder : List Part := [.core 0, .other 0]

end ChampSim.Simulation

/-
A whole simulated system: its cores, the operables behind them, and the traces
that the cores read.

The caches, the page table walkers and the memory controller are one state with
one function for each of their virtual functions. They reach a core through its
two buses only. The sort of a cycle may leave operables with the same time in
any order, so the order is given.
-/

import ChampSim.Core.Progress

set_option autoImplicit false

namespace ChampSim.Simulation

open ChampSim.Core (O3Cpu CoreModules OooModelInstr RegisterAllocator TraceInstr)
open Cache (Channel Request Response)

/-- `champsim::operable`. -/
structure Operable where
  clockPeriod : Nat
  currentTime : Nat := 0
  warmup : Bool := true
  positive : 0 < clockPeriod

def Operable.tick (operable : Operable) : Operable :=
  { operable with currentTime := operable.currentTime + operable.clockPeriod }

/-- What an operable behind the cores does to a bus of a core. -/
inductive BusChange where
  | serve (bus : Core.Bus) (rq pq wq : List Request)
  | answer (bus : Core.Bus) (response : Response)

def BusChange.apply {Module : Type} (core : O3Cpu Module) : BusChange → O3Cpu Module
  | .serve bus rq pq wq => core.updateBus bus (fun channel => { channel with rq, pq, wq })
  | .answer bus response => core.updateBus bus (fun channel => channel.pushReturned response)

/-- What one `operate` of an operable behind the cores counts and does. -/
structure Operated (Others : Type) where
  progress : Nat
  changes : List (Nat × BusChange)
  others : Others

/-- The fixed parts of a system: its cores, each in the place of its number, the
order in which `cpu_view` has so many of them, the virtual functions of the other
operables, and the readers behind `tracereader`. -/
structure Parts (Module Others Source : Type) where
  config : Nat → Core.Config
  cpuView : Nat → List Nat
  hooks : CoreModules Module
  beyond : Others → RegisterAllocator → Nat → Bool
  operate : Nat → Operable → List (Channel × Channel) → Others → Option (Operated Others)
  beginPhase : Nat → Operable → Others → Others
  endPhase : Nat → (cpu : Nat) → Others → Others
  eof : Source → Bool
  call : Source → Option (TraceInstr × Source)
  positive : ∀ cpu, 0 < (config cpu).clockPeriod
  numbered : ∀ cpu, (config cpu).cpu = cpu
  viewed : ∀ count, (cpuView count).Perm (List.range count)

/-- The instructions and the cycles of a `cpu_stats`. -/
structure CpuStats where
  beginInstrs : Int := 0
  beginCycles : Int := 0
  endInstrs : Int := 0
  endCycles : Int := 0
deriving DecidableEq, Repr

def CpuStats.instrs (stats : CpuStats) : Int := stats.endInstrs - stats.beginInstrs

def CpuStats.cycles (stats : CpuStats) : Int := stats.endCycles - stats.beginCycles

structure Cpu (Module : Type) where
  core : O3Cpu Module
  beginPhaseInstr : Int := 0
  beginPhaseTime : Nat := 0
  finishPhaseInstr : Int := 0
  finishPhaseTime : Nat := 0
  simStats : CpuStats := {}
  roiStats : CpuStats := {}

namespace Cpu

variable {Module : Type}

def simInstr (cpu : Cpu Module) : Int := cpu.core.numRetired - cpu.beginPhaseInstr

def beginPhase (config : Core.Config) (isWarmup : Bool) (cpu : Cpu Module) : Cpu Module :=
  { cpu with
    core := { cpu.core with warmup := isWarmup }
    beginPhaseInstr := cpu.core.numRetired
    beginPhaseTime := cpu.core.currentTime
    simStats :=
      { beginInstrs := cpu.core.numRetired
        beginCycles := (cpu.core.currentTime / config.clockPeriod : Nat) } }

def endPhase (config : Core.Config) (isFinished : Bool) (cpu : Cpu Module) : Cpu Module :=
  let simStats :=
    { cpu.simStats with
      endInstrs := cpu.core.numRetired
      endCycles := (cpu.core.currentTime / config.clockPeriod : Nat) }
  if isFinished then
    { cpu with
      simStats
      finishPhaseInstr := cpu.core.numRetired
      finishPhaseTime := cpu.core.currentTime
      roiStats := simStats }
  else { cpu with simStats }

end Cpu

/-- A place in `operable_view`. -/
inductive Part where
  | core (cpu : Nat)
  | other (index : Nat)
deriving DecidableEq, Repr

structure System (Module Others Source : Type) where
  now : Nat := 0
  cpus : List (Cpu Module)
  operables : List Operable
  others : Others
  traces : List Source
  instrUniqueId : Nat := 0

namespace System

variable {Module Others Source : Type} (parts : Parts Module Others Source)

def operableView (system : System Module Others Source) : List Part :=
  (parts.cpuView system.cpus.length).map Part.core ++
    (List.range system.operables.length).map Part.other

def clockPeriod (system : System Module Others Source) : Part → Nat
  | .core cpu => (parts.config cpu).clockPeriod
  | .other index => (system.operables[index]?).elim 1 Operable.clockPeriod

def currentTime (system : System Module Others Source) : Part → Nat
  | .core cpu => (system.cpus[cpu]?).elim 0 (fun one => one.core.currentTime)
  | .other index => (system.operables[index]?).elim 0 Operable.currentTime

def buses (system : System Module Others Source) : List (Channel × Channel) :=
  system.cpus.map (fun one => (one.core.l1iBus, one.core.l1dBus))

/-! ### Operating -/

def changeBus (cpus : List (Cpu Module)) (change : Nat × BusChange) : List (Cpu Module) :=
  cpus.modify change.1 (fun one => { one with core := change.2.apply one.core })

/-- `operable::_operate`. -/
def operate (system : System Module Others Source) :
    Part → Option (Int × System Module Others Source)
  | .core cpu =>
      (system.cpus[cpu]?).bind fun one =>
        (O3Cpu.operate (parts.config cpu) parts.hooks (parts.beyond system.others)
          (one.core.tick (parts.config cpu))).map fun (progress, core) =>
            (progress, { system with cpus := system.cpus.set cpu { one with core } })
  | .other index =>
      (system.operables[index]?).bind fun operable =>
        (parts.operate index operable.tick system.buses system.others).map fun operated =>
          (operated.progress,
            { system with
              cpus := operated.changes.foldl changeBus system.cpus
              operables := system.operables.set index operable.tick
              others := operated.others })

/-- The loop of `operate_on`, for at most so many passes. -/
def operateLoop (part : Part) :
    Nat → System Module Others Source → Option (Int × System Module Others Source)
  | 0, system => some (0, system)
  | passes + 1, system =>
      if system.currentTime part < system.now then
        (system.operate parts part).bind fun (progress, next) =>
          (operateLoop part passes next).map fun (more, last) => (progress + more, last)
      else some (0, system)

/-- `operable::operate_on`. The time that is left is enough passes. -/
def operateOn (system : System Module Others Source) (part : Part) :
    Option (Int × System Module Others Source) :=
  operateLoop parts part (system.now - system.currentTime part) system

def operateEach :
    List Part → System Module Others Source → Option (Int × System Module Others Source)
  | [], system => some (0, system)
  | part :: rest, system =>
      (system.operateOn parts part).bind fun (progress, next) =>
        (operateEach rest next).map fun (more, last) => (progress + more, last)

/-! ### Reading the traces -/

/-- One `input_queue.push_back(trace())`. -/
def readTrace (system : System Module Others Source) (cpu index : Nat) (source : Source) :
    Option (System Module Others Source) :=
  (parts.call source).map fun (record, next) =>
    { system with
      cpus := system.cpus.modify cpu (fun one =>
        { one with
          core :=
            { one.core with
              inputQueue :=
                one.core.inputQueue ++ [OooModelInstr.ofTrace system.instrUniqueId record] } })
      traces := system.traces.set index next
      instrUniqueId := system.instrUniqueId + 1 }

/-- The loop that fills an input queue, with `pkt_count`. -/
def fillQueue (cpu index : Nat) :
    Nat → System Module Others Source → Option (System Module Others Source)
  | 0, system => some system
  | count + 1, system =>
      (system.traces[index]?).bind fun source =>
        if parts.eof source then some system
        else (system.readTrace parts cpu index source).bind (fillQueue cpu index count)

def readFor (traceIndex : List Nat) (system : System Module Others Source) (cpu : Nat) :
    Option (System Module Others Source) :=
  (traceIndex[cpu]?).bind fun index =>
    (system.traces[index]?).bind fun _trace =>
      (system.cpus[cpu]?).bind fun one =>
        system.fillQueue parts cpu index
          ((parts.config cpu).inQueueSize - one.core.inputQueue.length)

def readTraces (traceIndex : List Nat) (system : System Module Others Source) :
    Option (System Module Others Source) :=
  (parts.cpuView system.cpus.length).foldlM (readFor parts traceIndex) system

/-! ### Cycles -/

/-- An order that `std::sort` may leave the operables in. -/
def Sorted (system : System Module Others Source) (order : List Part) : Prop :=
  order.Perm (system.operableView parts) ∧
    order.Pairwise (fun earlier later => system.currentTime earlier ≤ system.currentTime later)

instance (system : System Module Others Source) (order : List Part) :
    Decidable (system.Sorted parts order) :=
  inferInstanceAs (Decidable (_ ∧ _))

/-- `do_cycle`. -/
def doCycle (traceIndex : List Nat) (order : List Part) (system : System Module Others Source) :
    Option (Int × System Module Others Source) :=
  if system.Sorted parts order then
    (operateEach parts order system).bind fun (progress, operated) =>
      (operated.readTraces parts traceIndex).map fun next => (progress, next)
  else none

end System

end ChampSim.Simulation

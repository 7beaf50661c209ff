/-
Runs of the core.

The core is stepped stage by stage, so that a run also reaches the states
between two stages of a cycle. Around the stages the trace reader hands over
instructions, the caches take requests and return responses, and the warm-up
ends. A run of whole cycles is a run of stages.
-/

import ChampSim.Core.Backend
import ChampSim.Library.Transition

set_option autoImplicit false

namespace ChampSim.Core

open Transition Cache

inductive Bus where
  | l1i
  | l1d
deriving DecidableEq, Repr

inductive Stage where
  | retireRob
  | completeInflightInstruction
  | executeInstruction
  | scheduleInstruction (beyond : RegisterAllocator → Nat → Bool)
  | handleMemoryReturn
  | operateLsq
  | dispatchInstruction
  | decodeInstruction
  | promoteToDecode
  | fetchInstruction
  | checkDib
  | initializeInstruction

inductive Event where
  | tick
  | read (instrId : Nat) (record : TraceInstr)
  | serve (bus : Bus) (rq pq wq : List Request)
  | answer (bus : Bus) (response : Response)
  | beginPhase (warmup : Bool)

inductive Step where
  | stage (stage : Stage)
  | event (event : Event)

namespace O3Cpu

variable {Module : Type} (config : Config) (hooks : CoreModules Module)

def updateBus (state : O3Cpu Module) (bus : Bus) (change : Channel → Channel) : O3Cpu Module :=
  match bus with
  | .l1i => { state with l1iBus := change state.l1iBus }
  | .l1d => { state with l1dBus := change state.l1dBus }

def runStage (state : O3Cpu Module) : Stage → Option (O3Cpu Module)
  | .retireRob => state.retireRob config
  | .completeInflightInstruction => state.completeInflightInstruction config
  | .executeInstruction => state.executeInstruction config
  | .scheduleInstruction beyond => state.scheduleInstruction config beyond
  | .handleMemoryReturn => state.handleMemoryReturn config
  | .operateLsq => state.operateLsq config
  | .dispatchInstruction => state.dispatchInstruction config
  | .decodeInstruction => some (state.decodeInstruction config hooks)
  | .promoteToDecode => state.promoteToDecode config
  | .fetchInstruction => some (state.fetchInstruction config)
  | .checkDib => some (state.checkDib config hooks)
  | .initializeInstruction => some (state.initializeInstruction config hooks)

/-- The trace is read while the queue has room, and no warm-up begins after
one has ended. -/
def occur (state : O3Cpu Module) : Event → Option (O3Cpu Module)
  | .tick => some { state with currentTime := state.currentTime + config.clockPeriod }
  | .read instrId record =>
      if state.inputQueue.length < config.inQueueSize then
        some { state with
          inputQueue := state.inputQueue ++ [OooModelInstr.ofTrace instrId record] }
      else none
  | .serve bus rq pq wq =>
      some (state.updateBus bus (fun channel => { channel with rq, pq, wq }))
  | .answer bus response =>
      some (state.updateBus bus (fun channel => channel.pushReturned response))
  | .beginPhase warmup =>
      if warmup && !state.warmup then none else some { state with warmup }

def step (state : O3Cpu Module) : Step → Option (O3Cpu Module)
  | .stage stage => state.runStage config hooks stage
  | .event event => state.occur config event

end O3Cpu

def stages {Module : Type} (config : Config) (hooks : CoreModules Module) :
    Machine (O3Cpu Module) Step where
  step := O3Cpu.step config hooks

/-! ### Whole cycles -/

/-- The stages of `O3_CPU::operate`, after the clock has advanced. -/
def operate (beyond : RegisterAllocator → Nat → Bool) : List Step :=
  [.event .tick, .stage .retireRob, .stage .completeInflightInstruction,
    .stage .executeInstruction, .stage (.scheduleInstruction beyond), .stage .handleMemoryReturn,
    .stage .operateLsq, .stage .dispatchInstruction, .stage .decodeInstruction,
    .stage .promoteToDecode, .stage .fetchInstruction, .stage .checkDib,
    .stage .initializeInstruction]

inductive CycleStep where
  | operate (beyond : RegisterAllocator → Nat → Bool)
  | event (event : Event)

def CycleStep.steps : CycleStep → List Step
  | .operate beyond => Core.operate beyond
  | .event occurrence => [.event occurrence]

def cycles {Module : Type} (config : Config) (hooks : CoreModules Module) :
    Machine (O3Cpu Module) CycleStep where
  step state label := (stages config hooks).run state label.steps

theorem cycles_run {Module : Type} (config : Config) (hooks : CoreModules Module)
    (labels : List CycleStep) (start : O3Cpu Module) :
    (cycles config hooks).run start labels =
      (stages config hooks).run start (labels.flatMap CycleStep.steps) := by
  induction labels generalizing start with
  | nil => rfl
  | cons label rest ih =>
      rw [Machine.run_cons, List.flatMap_cons, Machine.run_append]
      exact congrArg _ (funext ih)

/-! ### A small core -/

def smallCore : Config where
  cpu := 0
  clockPeriod := 1
  log2BlockSize := 6
  ifetchBufferSize := 4
  dispatchBufferSize := 4
  decodeBufferSize := 4
  registerFileSize := 8
  robSize := 4
  lqSize := 4
  sqSize := 4
  dibHitBufferSize := 4
  inQueueSize := 4
  fetchWidth := 2
  decodeWidth := 2
  dispatchWidth := 2
  schedulerSize := 4
  execWidth := 2
  dibInorderWidth := 2
  lqWidth := 2
  sqWidth := 2
  retireWidth := 2
  l1iBandwidth := 1
  l1dBandwidth := 1
  branchMispredictPenalty := 1
  dispatchLatency := 1
  decodeLatency := 1
  schedulingLatency := 1
  execLatency := 1
  dibHitLatency := 1

/-- Modules that predict nothing, with a decoded instruction buffer that holds
every instruction. -/
def quietModules : CoreModules Unit where
  btbPrediction _ _ _ := ((0, false), ())
  predictBranch _ _ _ _ _ := (false, ())
  updateBtb _ _ _ _ _ := ()
  lastBranchResult _ _ _ _ _ := ()
  prefetcherBranchOperate _ _ _ _ := ()
  dibCheckHit _ _ := (true, ())
  dibFill _ _ := ()

def smallBus : Channel := { rqSize := 4, pqSize := 4, wqSize := 4 }

def smallInit : O3Cpu Unit := O3Cpu.init smallCore smallBus smallBus ()

def smallCycles (count : Nat) : List Step :=
  (List.replicate count (operate (fun _ _ => false))).flatten

def smallStore : TraceInstr where
  destinationRegisters := [1]
  sourceRegisters := [2]
  destinationMemory := [0x1000]

def smallMove : TraceInstr where
  destinationRegisters := [1]
  sourceRegisters := [2]

def smallLoad : TraceInstr where
  destinationRegisters := [1]
  sourceRegisters := [1]
  sourceMemory := [0x1000]

/-- A store, and a load that reads its address and the register it writes. -/
def storeAndLoad : List Step :=
  [.event (.beginPhase false), .event (.read 3 smallStore), .event (.read 7 smallLoad)]

end ChampSim.Core

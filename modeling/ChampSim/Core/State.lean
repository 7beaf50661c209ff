/-
The out-of-order core between two of its stages, and the modules that it calls.

A branch predictor, a branch target buffer, the prefetcher of the instruction
cache and the decoded instruction buffer are one state with one function for
each call of the core. The statistics of the core are left out.
-/

import ChampSim.Cache.Packet
import ChampSim.Core.RegisterAllocator
import ChampSim.Library.Queue

set_option autoImplicit false

namespace ChampSim.Core

open Cache

structure Config where
  cpu : Nat
  clockPeriod : Nat
  log2BlockSize : Nat
  ifetchBufferSize : Nat
  dispatchBufferSize : Nat
  decodeBufferSize : Nat
  registerFileSize : Nat
  robSize : Nat
  lqSize : Nat
  sqSize : Nat
  dibHitBufferSize : Nat
  inQueueSize : Nat
  fetchWidth : Nat
  decodeWidth : Nat
  dispatchWidth : Nat
  schedulerSize : Nat
  execWidth : Nat
  dibInorderWidth : Nat
  lqWidth : Nat
  sqWidth : Nat
  retireWidth : Nat
  l1iBandwidth : Nat
  l1dBandwidth : Nat
  branchMispredictPenalty : Nat
  dispatchLatency : Nat
  decodeLatency : Nat
  schedulingLatency : Nat
  execLatency : Nat
  dibHitLatency : Nat

def Config.blockNumber (config : Config) (address : Address) : BitVec 64 :=
  address.sliceUpper config.log2BlockSize

structure CoreModules (Module : Type) where
  btbPrediction : Module → (ip : Address) → BranchType → (Address × Bool) × Module
  predictBranch : Module → (ip predictedTarget : Address) → (alwaysTaken : Bool) → BranchType →
    Bool × Module
  updateBtb : Module → (ip target : Address) → (taken : Bool) → BranchType → Module
  lastBranchResult : Module → (ip target : Address) → (taken : Bool) → BranchType → Module
  prefetcherBranchOperate : Module → (ip : Address) → BranchType → (target : Address) → Module
  dibCheckHit : Module → (ip : Address) → Bool × Module
  dibFill : Module → (ip : Address) → Module

/-- `fetchResumeTime = none` stands for `time_point::max()`. -/
structure O3Cpu (Module : Type) where
  currentTime : Nat := 0
  warmup : Bool := true
  numRetired : Nat := 0
  inputQueue : List OooModelInstr := []
  ifetchBuffer : List OooModelInstr := []
  dibHitBuffer : List OooModelInstr := []
  decodeBuffer : List OooModelInstr := []
  dispatchBuffer : List OooModelInstr := []
  rob : List OooModelInstr := []
  lq : List (Option LsqEntry)
  sq : List LsqEntry := []
  regAllocator : RegisterAllocator
  fetchResumeTime : Option Nat := some 0
  l1iBus : Channel
  l1dBus : Channel
  modules : Module

namespace O3Cpu

variable {Module : Type}

def init (config : Config) (l1iBus l1dBus : Channel) (modules : Module) : O3Cpu Module where
  lq := List.replicate config.lqSize none
  regAllocator := RegisterAllocator.init config.registerFileSize
  l1iBus
  l1dBus
  modules

/-- A latency that a warm-up does not pay. -/
def latency (state : O3Cpu Module) (duration : Nat) : Nat := if state.warmup then 0 else duration

end O3Cpu

/-! ### Buses -/

/-- `CacheBus::issue_read`. -/
def issueRead (config : Config) (bus : Channel) (packet : Request) : Option Channel :=
  bus.addRq
    { packet with
      address := packet.vAddress
      isTranslated := false
      cpu := config.cpu
      type := .load }

/-- `CacheBus::issue_write`. -/
def issueWrite (config : Config) (bus : Channel) (packet : Request) : Option Channel :=
  bus.addWq
    { packet with
      address := packet.vAddress
      isTranslated := false
      cpu := config.cpu
      type := .write
      responseRequested := false }

end ChampSim.Core

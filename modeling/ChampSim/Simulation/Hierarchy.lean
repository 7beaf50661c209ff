/-
The data caches of a core over the memory.

The L1D misses into the L2C, the L2C into the LLC and the LLC into the memory
controller. They operate in any order, and everyone else who uses a cache does
as he likes. Each register that waits for a block has one request, entry or
response of its own below, so each is answered once.
-/

import ChampSim.Cache.Stack
import ChampSim.Dram.Promises
import ChampSim.Dram.SlotRuns

set_option autoImplicit false

namespace ChampSim.Simulation

open ChampSim.Cache (OperateConfig CycleModules Pipeline Channel LevelBelow Idle Rests Covered
  WellOrdered Turn)
open Dram (DramConfig MemoryController ControllerStep)
open Transition (Machine)

/-- The caches and the memory agree on what a block is. The numbers are those
of the channels between them. -/
structure Hierarchy where
  l1d : OperateConfig
  l2c : OperateConfig
  llc : OperateConfig
  memory : DramConfig
  l2cUpper : Nat
  llcUpper : Nat
  memoryUpper : Nat
  l2cBits : l2c.upperOffsetBits l2cUpper = l2c.offsetBits
  llcBits : llc.upperOffsetBits llcUpper = llc.offsetBits
  l2cBlocks : l2c.offsetBits = l1d.offsetBits
  llcBlocks : llc.offsetBits = l2c.offsetBits
  memoryBlocks : MemoryController.offsetBits memory = llc.offsetBits

namespace Hierarchy

variable (hierarchy : Hierarchy) {L1d L2c Llc : Type}

def memoryBelow : LevelBelow hierarchy.llc.offsetBits :=
  MemoryController.memoryBelow hierarchy.memory hierarchy.memoryUpper _ hierarchy.memoryBlocks

def llcBelow (llcHooks : CycleModules Llc) : LevelBelow hierarchy.l2c.offsetBits :=
  Cache.cacheBelow llcHooks hierarchy.llcUpper hierarchy.memoryBelow hierarchy.llcBits _
    hierarchy.llcBlocks

def l2cBelow (l2cHooks : CycleModules L2c) (llcHooks : CycleModules Llc) :
    LevelBelow hierarchy.l1d.offsetBits :=
  Cache.cacheBelow l2cHooks hierarchy.l2cUpper (hierarchy.llcBelow llcHooks) hierarchy.l2cBits _
    hierarchy.l2cBlocks

abbrev State (L1d L2c Llc : Type) : Type :=
  Pipeline hierarchy.l1d L1d × Pipeline hierarchy.l2c L2c × Pipeline hierarchy.llc Llc ×
    MemoryController

abbrev Label (L1d L2c Llc : Type) : Type := Turn L1d (Turn L2c (Turn Llc ControllerStep))

def machine (l1dHooks : CycleModules L1d) (l2cHooks : CycleModules L2c)
    (llcHooks : CycleModules Llc) :
    Machine (hierarchy.State L1d L2c Llc) (Label L1d L2c Llc) :=
  Cache.stack l1dHooks (hierarchy.l2cBelow l2cHooks llcHooks)

/-- Caches that hold nothing, over a memory as it is constructed. -/
structure Starts (start : hierarchy.State L1d L2c Llc) : Prop where
  l1d : Idle start.1
  l2c : Idle start.2.1
  llc : Idle start.2.2.1
  l2cChannel : start.2.1.upperLevels hierarchy.l2cUpper = start.1.lowerLevel
  llcChannel : start.2.2.1.upperLevels hierarchy.llcUpper = start.2.1.lowerLevel
  memory : ∃ queues rqSize wqSize, start.2.2.2 =
      MemoryController.make hierarchy.memory.addressMapping queues rqSize wqSize ∧
    queues[hierarchy.memoryUpper]? = some start.2.2.1.lowerLevel
  l1dEmpty : start.1.lowerLevel.Empty
  l2cEmpty : start.2.1.lowerLevel.Empty
  llcEmpty : start.2.2.1.lowerLevel.Empty

/-- The registers of each cache are well ordered, and those that wait for a
block are as many as the requests, entries and responses for it below. -/
structure Answers (reached : hierarchy.State L1d L2c Llc) : Prop where
  l1d : WellOrdered reached.1
  l2c : WellOrdered reached.2.1
  llc : WellOrdered reached.2.2.1
  l1dDue : ∀ block, reached.1.waitingFor block = reached.1.lowerLevel.due
    hierarchy.l1d.offsetBits block (reached.2.1.heldFor hierarchy.l2cUpper block)
  l2cDue : ∀ block, reached.2.1.waitingFor block = reached.2.1.lowerLevel.due
    hierarchy.l2c.offsetBits block (reached.2.2.1.heldFor hierarchy.llcUpper block)
  llcDue : ∀ block, reached.2.2.1.waitingFor block = reached.2.2.1.lowerLevel.due
    hierarchy.llc.offsetBits block
      (MemoryController.owes hierarchy.memory hierarchy.memoryUpper block reached.2.2.2)

variable {hierarchy}

theorem Starts.rests {start : hierarchy.State L1d L2c Llc} (starts : hierarchy.Starts start)
    (l2cHooks : CycleModules L2c) (llcHooks : CycleModules Llc) :
    Rests (hierarchy.l2cBelow l2cHooks llcHooks) start := by
  obtain ⟨queues, rqSize, wqSize, made, present⟩ := starts.memory
  obtain ⟨sound, quiet⟩ := MemoryController.make_below hierarchy.memory rqSize wqSize _
    hierarchy.memoryBlocks present starts.llcEmpty
  rw [← made] at sound quiet
  have memoryRests : Rests hierarchy.memoryBelow start.2.2 := by
    refine ⟨starts.llc, MemoryController.upper_eq _ ?_, sound, quiet⟩
    rw [made]
    exact present
  obtain ⟨llcSound, llcQuiet⟩ := memoryRests.below llcHooks hierarchy.llcUpper hierarchy.llcBits
    _ hierarchy.llcBlocks (starts.llcChannel ▸ starts.l2cEmpty)
  have llcRests : Rests (hierarchy.llcBelow llcHooks) start.2 :=
    ⟨starts.l2c, starts.llcChannel, llcSound, llcQuiet⟩
  obtain ⟨l2cSound, l2cQuiet⟩ := llcRests.below l2cHooks hierarchy.l2cUpper hierarchy.l2cBits
    _ hierarchy.l2cBlocks (starts.l2cChannel ▸ starts.l1dEmpty)
  exact ⟨starts.l1d, starts.l2cChannel, l2cSound, l2cQuiet⟩

theorem answers_of_covered (l2cHooks : CycleModules L2c) (llcHooks : CycleModules Llc)
    {reached : hierarchy.State L1d L2c Llc}
    (covered : Covered (hierarchy.l2cBelow l2cHooks llcHooks) reached) :
    hierarchy.Answers reached := by
  have l2cServing : Cache.Serving hierarchy.l2cUpper (hierarchy.llcBelow llcHooks) reached.2 :=
    covered.sound
  have l2cCovered := l2cServing.covered
  have llcServing : Cache.Serving hierarchy.llcUpper hierarchy.memoryBelow reached.2.2 :=
    l2cCovered.sound
  have llcCovered := llcServing.covered
  constructor
  · exact covered.wellOrdered
  · exact l2cCovered.wellOrdered
  · exact llcCovered.wellOrdered
  · intro block
    rw [covered.waitingFor block, ← covered.channel]
    rfl
  · intro block
    rw [l2cCovered.waitingFor block, ← l2cCovered.channel]
    rfl
  · intro block
    rw [llcCovered.waitingFor block, ← llcCovered.channel]
    rfl

/-- In every state of every run, whatever the order of the turns is, each miss
register of the three caches is answered once. -/
theorem run_answers (l1dHooks : CycleModules L1d) (l2cHooks : CycleModules L2c)
    (llcHooks : CycleModules Llc) (start : hierarchy.State L1d L2c Llc)
    (starts : hierarchy.Starts start) (turns : List (Label L1d L2c Llc))
    (reached : hierarchy.State L1d L2c Llc)
    (ran : (hierarchy.machine l1dHooks l2cHooks llcHooks).run start turns = some reached) :
    hierarchy.Answers reached := by
  have initial := (starts.rests l2cHooks llcHooks).covered
  exact answers_of_covered l2cHooks llcHooks
    (Covered.run (hierarchy.l2cBelow l2cHooks llcHooks) l1dHooks turns start reached initial ran)

/-! ### A miss in all three caches -/

/-- Three caches of two ways over a memory of eight banks. -/
def twoWayCaches : Hierarchy where
  l1d := Cache.twoWays
  l2c := Cache.twoWays
  llc := Cache.twoWays
  memory := Dram.DramChannel.eightBanks
  l2cUpper := 0
  llcUpper := 0
  memoryUpper := 0
  l2cBits := rfl
  llcBits := rfl
  l2cBlocks := rfl
  llcBlocks := rfl
  memoryBlocks := rfl

def idleCaches : twoWayCaches.State Unit Unit Unit :=
  (Cache.idleCache, Cache.idleCache, Cache.idleCache,
    MemoryController.make twoWayCaches.memory.addressMapping
      [{ rqSize := 4, pqSize := 4, wqSize := 4 }] 4 4)

theorem idleCaches_starts : twoWayCaches.Starts idleCaches where
  l1d := Cache.idleCache_idle
  l2c := Cache.idleCache_idle
  llc := Cache.idleCache_idle
  l2cChannel := rfl
  llcChannel := rfl
  memory := ⟨_, 4, 4, rfl, rfl⟩
  l1dEmpty := ⟨rfl, rfl, rfl, rfl⟩
  l2cEmpty := ⟨rfl, rfl, rfl, rfl⟩
  llcEmpty := ⟨rfl, rfl, rfl, rfl⟩

def everyone : List (Label Unit Unit Unit) :=
  [.above .operate, .below (.above .operate), .below (.below (.above .operate)),
    .below (.below (.below .operate))]

/-- The L1D takes a request, and all operate for some rounds. -/
def missFor (rounds : Nat) : List (Label Unit Unit Unit) :=
  [.above (.upperLevels (Cache.requestsAbove [{ address := 0x40 }] [])), .above .operate,
    .above (.upperLevels (Cache.requestsAbove [] []))] ++
      (List.replicate rounds everyone).flatten

/-- After seven rounds the L1D and the L2C wait, and the memory has answered the LLC. -/
theorem run_answers_missFor :
    ∃ reached, (twoWayCaches.machine Cache.silentCycle Cache.silentCycle Cache.silentCycle).run
        idleCaches (missFor 7) = some reached ∧
      reached.1.waitingFor 1 = 1 ∧ twoWayCaches.Answers reached := by
  have waits : ((twoWayCaches.machine Cache.silentCycle Cache.silentCycle
      Cache.silentCycle).run idleCaches (missFor 7)).map (fun reached =>
        reached.1.waitingFor 1) = some 1 := by
    decide +kernel
  obtain ⟨reached, ran, waiting⟩ := Option.map_eq_some_iff.mp waits
  exact ⟨reached, ran, waiting, run_answers Cache.silentCycle Cache.silentCycle Cache.silentCycle
    idleCaches idleCaches_starts (missFor 7) reached ran⟩

end Hierarchy

end ChampSim.Simulation

/-
Constants, entries and state of the TAGE predictor of branch/Tage/tage.h.

Components are numbered from 1 as in the source, with -1 for "none"; the row of
component `c` is `c - 1`. A tag is the 32-bit word the source compares.
-/

import ChampSim.Library.CArray
import ChampSim.Msl.Fwcounter
import ChampSim.Branch.Module
import Mathlib.Data.Int.Range

set_option autoImplicit false

namespace ChampSim.Tage

open Msl Branch

def numComponents : Int := 13

def tageEntries : Nat := 1024

def bimodalEntries : Nat := 16 * 1024

def phistBits : Nat := 16

def ghistBits : Nat := 640

def weaklyTaken : Int := 4

def weaklyNotTaken : Int := 3

def resetUsefulInterval : Int := 512 * 1024

def tagWidths : List Nat := [7, 7, 8, 8, 9, 10, 11, 12, 12, 13, 14, 15]

def histLens : List Nat := [4, 6, 10, 16, 25, 40, 64, 101, 160, 254, 403, 640]

def tageIndexBits : List Nat := [10, 10, 10, 10, 10, 10, 10, 10, 10, 10, 10, 10]

/-- The subscript `[component - 1]` into one of the three width tables. -/
def ofComponent (table : List Nat) (component : Int) : Nat :=
  table.getD (component - 1).toNat 0

/-- The tagged components, in the order of every loop of the source. -/
def components : List Int := Int.range 1 numComponents

@[ext] structure TageEntry where
  pred : Fwcounter 3
  tag : BitVec 32
  u : Fwcounter 2
deriving DecidableEq, Repr

def TageEntry.reset (entry : TageEntry) : TageEntry :=
  { pred := entry.pred.assign 0
    tag := 0
    u := entry.u.assign 0 }

/-- `TAGE_ENTRY_INVALID`: the tag is -1, which no hash produces. -/
def makeInvalidTageEntry : TageEntry :=
  { pred := Fwcounter.zero 3
    tag := -1
    u := Fwcounter.zero 2 }

instance : Inhabited TageEntry := ⟨makeInvalidTageEntry⟩

structure BranchInfo where
  branchIp : Address
  providerComp : Int
  providerCompEntry : TageEntry
  providerCompPred : Bool
  providerIndex : Int
  altpredComp : Int
  altpredCompEntry : TageEntry
  altpredCompPred : Bool
  altpredIndex : Int
  ultimatePred : Bool
  bimodalEntry : Fwcounter 2
deriving DecidableEq, Repr, Inhabited

/-- The source assigns -1 to its booleans, which makes them true. -/
def BranchInfo.reset (info : BranchInfo) : BranchInfo :=
  { branchIp := -1
    providerComp := -1
    altpredComp := -1
    providerIndex := -1
    altpredIndex := -1
    providerCompPred := true
    altpredCompPred := true
    ultimatePred := true
    providerCompEntry := info.providerCompEntry.reset
    altpredCompEntry := info.altpredCompEntry.reset
    bimodalEntry := info.bimodalEntry.assign 2 }

end ChampSim.Tage

namespace ChampSim

open Msl Branch Tage

structure Tage where
  tageTable : CArray 12 (CArray tageEntries TageEntry)
  bimodalTable : CArray bimodalEntries (Fwcounter 2)
  branchInfo : BranchInfo
  numBranches : Int
  phist : BitVec 32
  ghist : BitVec (ghistBits + 1)
  useAltOnNa : Fwcounter 4
deriving Inhabited

namespace Tage

/-- `tage_table[component - 1][index]`. -/
def entry (tage : Tage) (component index : Int) : TageEntry :=
  tage.tageTable.at2 (component - 1) index

def setEntry (tage : Tage) (component index : Int) (changed : TageEntry) : Tage :=
  { tage with tageTable := tage.tageTable.set2 (component - 1) index changed }

/-- A counter predicts taken in the upper half of its range. -/
def predictsTaken {width : Nat} (counter : Fwcounter width) : Bool :=
  decide (counter.value > counter.maximum / 2)

/-- `entry.pred` is weak in the given direction. -/
def weak (taken : Bool) : Int := if taken then weaklyTaken else weaklyNotTaken

def Slot (component index : Int) : Prop :=
  (1 ≤ component ∧ component ≤ 12) ∧ (0 ≤ index ∧ index < 1024)

theorem Slot.row {component index : Int} (slot : Slot component index) :
    CArray.InBounds 12 (component - 1) := by
  obtain ⟨⟨low, high⟩, _⟩ := slot
  exact ⟨by omega, by omega⟩

theorem Slot.column {component index : Int} (slot : Slot component index) :
    CArray.InBounds tageEntries index := ⟨slot.2.1, slot.2.2⟩

theorem entry_setEntry_same (tage : Tage) (component index : Int) (changed : TageEntry)
    (slot : Slot component index) :
    (tage.setEntry component index changed).entry component index = changed :=
  CArray.at2_set2_same _ _ _ _ slot.row slot.column

theorem entry_setEntry_other (tage : Tage) (component index other otherIndex : Int)
    (changed : TageEntry) (different : other ≠ component ∨ otherIndex ≠ index) :
    (tage.setEntry component index changed).entry other otherIndex =
      tage.entry other otherIndex := by
  refine CArray.at2_set2_other _ _ _ _ _ _ ?_
  rcases different with componentDifferent | indexDifferent
  · exact Or.inl (by omega)
  · exact Or.inr indexDifferent

theorem mem_components (component : Int) :
    component ∈ components ↔ 1 ≤ component ∧ component ≤ 12 := by
  unfold components numComponents
  rw [Int.mem_range_iff]
  omega

/-- `Tage::initialize_branch_predictor`. It leaves `USE_ALT_ON_NA` as the
constructor made it. -/
def initializeBranchPredictor (tage : Tage) : Tage :=
  { tage with
    tageTable := tage.tageTable.map2 TageEntry.reset
    bimodalTable := tage.bimodalTable.map (fun counter => counter.assign (1 + counter.maximum / 2))
    numBranches := 0
    ghist := 0
    phist := 0
    branchInfo := tage.branchInfo.reset }

/-- The implicit constructor: counters start at 0, every other member holds
whatever was in memory. -/
def construct (memory : Tage) : Tage :=
  { memory with
    tageTable := memory.tageTable.map2
      (fun entry => { entry with pred := Fwcounter.zero 3, u := Fwcounter.zero 2 })
    bimodalTable := CArray.fill bimodalEntries (Fwcounter.zero 2)
    branchInfo := { memory.branchInfo with
      providerCompEntry :=
        { memory.branchInfo.providerCompEntry with pred := Fwcounter.zero 3, u := Fwcounter.zero 2 }
      altpredCompEntry :=
        { memory.branchInfo.altpredCompEntry with pred := Fwcounter.zero 3, u := Fwcounter.zero 2 }
      bimodalEntry := Fwcounter.zero 2 }
    useAltOnNa := Fwcounter.zero 4 }

def fresh (memory : Tage) : Tage := (construct memory).initializeBranchPredictor

theorem entry_initializeBranchPredictor (tage : Tage) (component index : Int)
    (slot : Slot component index) :
    tage.initializeBranchPredictor.entry component index =
      (tage.entry component index).reset :=
  CArray.at2_map2 _ _ _ _ slot.row slot.column

theorem entry_fresh (memory : Tage) (component index : Int) (slot : Slot component index) :
    (fresh memory).entry component index =
      { pred := Fwcounter.zero 3, tag := 0, u := Fwcounter.zero 2 } := by
  rw [fresh, entry_initializeBranchPredictor _ _ _ slot]
  rfl

end Tage

end ChampSim

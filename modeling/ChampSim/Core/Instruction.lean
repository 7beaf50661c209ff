/-
The instructions of the core and the entries of its load and store queues.

A register of an instruction is an architectural number until the instruction
is scheduled and a physical one after that: one field holds both, as in the
source. Fields that no modelled function reads are left out.
-/

import ChampSim.Address
import Mathlib.Data.Option.Basic

set_option autoImplicit false

namespace ChampSim.Core

inductive BranchType where
  | branchDirectJump
  | branchIndirect
  | branchConditional
  | branchDirectCall
  | branchIndirectCall
  | branchReturn
  | branchOther
  | notBranch
deriving DecidableEq, Repr

def regStackPointer : Nat := 6

def regFlags : Nat := 25

def regInstructionPointer : Nat := 26

structure TraceInstr where
  ip : Address := 0
  isBranch : Bool := false
  branchTaken : Bool := false
  branch : BranchType := .notBranch
  branchTarget : Address := 0
  asid : BitVec 8 × BitVec 8 := (255, 255)
  destinationRegisters : List (Fin 256) := []
  sourceRegisters : List (Fin 256) := []
  destinationMemory : List Address := []
  sourceMemory : List Address := []
deriving DecidableEq, Repr

structure OooModelInstr where
  instrId : Nat
  ip : Address := 0
  readyTime : Nat := 0
  isBranch : Bool := false
  branchTaken : Bool := false
  branchPrediction : Bool := false
  branchMispredicted : Bool := false
  asid : BitVec 8 × BitVec 8 := (255, 255)
  branch : BranchType := .notBranch
  branchTarget : Address := 0
  dibChecked : Bool := false
  fetchIssued : Bool := false
  fetchCompleted : Bool := false
  decoded : Bool := false
  scheduled : Bool := false
  executed : Bool := false
  completed : Bool := false
  completedMemOps : Nat := 0
  destinationRegisters : List Nat := []
  sourceRegisters : List Nat := []
  destinationMemory : List Address := []
  sourceMemory : List Address := []
deriving DecidableEq, Repr

namespace OooModelInstr

/-- An instruction as the trace reader hands it to the core. -/
def ofTrace (instrId : Nat) (record : TraceInstr) : OooModelInstr :=
  { instrId
    ip := record.ip
    isBranch := record.isBranch
    branchTaken := record.branchTaken
    asid := record.asid
    branch := record.branch
    branchTarget := record.branchTarget
    destinationRegisters := record.destinationRegisters.map Fin.val
    sourceRegisters := record.sourceRegisters.map Fin.val
    destinationMemory := record.destinationMemory
    sourceMemory := record.sourceMemory }

def numMemOps (instr : OooModelInstr) : Nat :=
  instr.destinationMemory.length + instr.sourceMemory.length

end OooModelInstr

/-- `readyTime = none` stands for `time_point::max()`, `producerId = none` for
an id that no instruction has, and an entry of `lqDependOnMe` is a slot of the
load queue. -/
structure LsqEntry where
  instrId : Nat
  virtualAddress : Address
  ip : Address
  asid : BitVec 8 × BitVec 8
  readyTime : Option Nat := none
  fetchIssued : Bool := false
  producerId : Option Nat := none
  lqDependOnMe : List Nat := []
deriving DecidableEq, Repr

namespace LsqEntry

/-- `finish` on an instruction, with its two assertions. -/
def finishInstr (entry : LsqEntry) (instr : OooModelInstr) : Option OooModelInstr :=
  if instr.instrId = entry.instrId ∧ instr.completedMemOps + 1 ≤ instr.numMemOps then
    some { instr with completedMemOps := instr.completedMemOps + 1 }
  else none

/-- `finish` on the reorder buffer: the instruction is found by
`std::partition_point`. -/
def finish (entry : LsqEntry) (rob : List OooModelInstr) : Option (List OooModelInstr) :=
  let index := (rob.takeWhile (fun instr => decide (instr.instrId < entry.instrId))).length
  rob[index]?.bind fun instr => (entry.finishInstr instr).map (rob.set index)

end LsqEntry

end ChampSim.Core

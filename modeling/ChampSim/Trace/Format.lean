/-
The records of a trace file and the instruction that the simulator makes of
each: which registers and addresses it uses, and what kind of branch it is.
-/

import ChampSim.Core.Instruction
import ChampSim.Library.Layout

set_option autoImplicit false

namespace ChampSim.Trace

open ChampSim.Core (BranchType TraceInstr)

def numInstrDestinationsSparc : Nat := 4

def numInstrDestinations : Nat := 2

def numInstrSources : Nat := 4

structure InputInstr where
  ip : BitVec 64
  isBranch : Byte
  branchTaken : Byte
  destinationRegisters : Vector Byte numInstrDestinations
  sourceRegisters : Vector Byte numInstrSources
  destinationMemory : Vector (BitVec 64) numInstrDestinations
  sourceMemory : Vector (BitVec 64) numInstrSources
deriving DecidableEq

structure CloudsuiteInstr where
  ip : BitVec 64
  isBranch : Byte
  branchTaken : Byte
  destinationRegisters : Vector Byte numInstrDestinationsSparc
  sourceRegisters : Vector Byte numInstrSources
  destinationMemory : Vector (BitVec 64) numInstrDestinationsSparc
  sourceMemory : Vector (BitVec 64) numInstrSources
  asid : Byte × Byte
deriving DecidableEq

/-! ### Object representations -/

def inputInstrLayout : Layout InputInstr :=
  ((Layout.little 8).pair <| (Layout.little 1).pair <| (Layout.little 1).pair <|
    ((Layout.little 1).array numInstrDestinations).pair <|
    ((Layout.little 1).array numInstrSources).pair <|
    ((Layout.little 8).array numInstrDestinations).pair <|
    (Layout.little 8).array numInstrSources).record
    (fun instr => (instr.ip, instr.isBranch, instr.branchTaken, instr.destinationRegisters,
      instr.sourceRegisters, instr.destinationMemory, instr.sourceMemory))
    (fun (ip, isBranch, branchTaken, destinationRegisters, sourceRegisters, destinationMemory,
      sourceMemory) => ⟨ip, isBranch, branchTaken, destinationRegisters, sourceRegisters,
        destinationMemory, sourceMemory⟩)
    (fun _ => rfl)

example : inputInstrLayout.size = 64 := rfl

/-- The addresses are aligned to eight bytes, and so is the whole record. -/
def cloudsuiteInstrLayout : Layout CloudsuiteInstr :=
  ((Layout.little 8).pair <| (Layout.little 1).pair <| (Layout.little 1).pair <|
    ((Layout.little 1).array numInstrDestinationsSparc).pair <|
    (((Layout.little 1).array numInstrSources).padded 6).pair <|
    ((Layout.little 8).array numInstrDestinationsSparc).pair <|
    ((Layout.little 8).array numInstrSources).pair <|
    ((Layout.little 1).pair (Layout.little 1)).padded 6).record
    (fun instr => (instr.ip, instr.isBranch, instr.branchTaken, instr.destinationRegisters,
      instr.sourceRegisters, instr.destinationMemory, instr.sourceMemory, instr.asid))
    (fun (ip, isBranch, branchTaken, destinationRegisters, sourceRegisters, destinationMemory,
      sourceMemory, asid) => ⟨ip, isBranch, branchTaken, destinationRegisters, sourceRegisters,
        destinationMemory, sourceMemory, asid⟩)
    (fun _ => rfl)

example : cloudsuiteInstrLayout.size = 96 := rfl

/-! ### Instructions -/

/-- What the constructor of an instruction reads of a record. -/
structure Fields where
  ip : BitVec 64
  isBranch : Byte
  branchTaken : Byte
  destinationRegisters : List Byte
  sourceRegisters : List Byte
  destinationMemory : List (BitVec 64)
  sourceMemory : List (BitVec 64)

/-- The constructor that the constructors for the two record types share. -/
def Fields.oooModelInstr (instr : Fields) (localAsid : Byte × Byte) : TraceInstr :=
  let destinationRegisters :=
    (instr.destinationRegisters.filter (· ≠ 0)).map (fun register => register.toFin)
  let sourceRegisters := (instr.sourceRegisters.filter (· ≠ 0)).map (fun register => register.toFin)
  let made : TraceInstr :=
    { ip := instr.ip
      isBranch := decide (instr.isBranch ≠ 0)
      branchTaken := decide (instr.branchTaken ≠ 0)
      asid := localAsid
      destinationRegisters := destinationRegisters
      sourceRegisters := sourceRegisters
      destinationMemory := instr.destinationMemory.filter (· ≠ 0)
      sourceMemory := instr.sourceMemory.filter (· ≠ 0) }
  let writesSp := destinationRegisters.any (fun register => register.val = Core.regStackPointer)
  let writesIp := destinationRegisters.any
    (fun register => register.val = Core.regInstructionPointer)
  let readsSp := sourceRegisters.any (fun register => register.val = Core.regStackPointer)
  let readsFlags := sourceRegisters.any (fun register => register.val = Core.regFlags)
  let readsIp := sourceRegisters.any (fun register => register.val = Core.regInstructionPointer)
  let readsOther := sourceRegisters.any (fun register => register.val ≠ Core.regStackPointer &&
    register.val ≠ Core.regFlags && register.val ≠ Core.regInstructionPointer)
  if !readsSp && !readsFlags && writesIp && !readsOther then
    { made with isBranch := true, branchTaken := true, branch := .branchDirectJump }
  else if !readsSp && !readsIp && !readsFlags && writesIp && readsOther then
    { made with isBranch := true, branchTaken := true, branch := .branchIndirect }
  else if !readsSp && readsIp && !writesSp && writesIp && (readsFlags || readsOther) then
    { made with isBranch := true, branch := .branchConditional }
  else if readsSp && readsIp && writesSp && writesIp && !readsFlags && !readsOther then
    { made with isBranch := true, branchTaken := true, branch := .branchDirectCall }
  else if readsSp && readsIp && writesSp && writesIp && !readsFlags && readsOther then
    { made with isBranch := true, branchTaken := true, branch := .branchIndirectCall }
  else if readsSp && !readsIp && writesSp && writesIp then
    { made with isBranch := true, branchTaken := true, branch := .branchReturn }
  else if writesIp then
    { made with isBranch := true, branch := .branchOther }
  else { made with branchTaken := false }

def InputInstr.oooModelInstr (cpu : Byte) (instr : InputInstr) : TraceInstr :=
  Fields.oooModelInstr
    { ip := instr.ip
      isBranch := instr.isBranch
      branchTaken := instr.branchTaken
      destinationRegisters := instr.destinationRegisters.toList
      sourceRegisters := instr.sourceRegisters.toList
      destinationMemory := instr.destinationMemory.toList
      sourceMemory := instr.sourceMemory.toList } (cpu, cpu)

def CloudsuiteInstr.oooModelInstr (_cpu : Byte) (instr : CloudsuiteInstr) : TraceInstr :=
  Fields.oooModelInstr
    { ip := instr.ip
      isBranch := instr.isBranch
      branchTaken := instr.branchTaken
      destinationRegisters := instr.destinationRegisters.toList
      sourceRegisters := instr.sourceRegisters.toList
      destinationMemory := instr.destinationMemory.toList
      sourceMemory := instr.sourceMemory.toList } instr.asid

theorem Fields.oooModelInstr_branchTarget (instr : Fields) (localAsid : Byte × Byte) :
    (instr.oooModelInstr localAsid).branchTarget = 0 := by
  unfold Fields.oooModelInstr
  dsimp only
  split_ifs <;> rfl

structure TraceFormat (Record : Type) extends Layout Record where
  positive : 0 < size
  inflate : Byte → Record → TraceInstr
  untargeted : ∀ cpu record, (inflate cpu record).branchTarget = 0

def inputInstr : TraceFormat InputInstr where
  toLayout := inputInstrLayout
  positive := by decide
  inflate := InputInstr.oooModelInstr
  untargeted _ _ := Fields.oooModelInstr_branchTarget _ _

def cloudsuiteInstr : TraceFormat CloudsuiteInstr where
  toLayout := cloudsuiteInstrLayout
  positive := by decide
  inflate := CloudsuiteInstr.oooModelInstr
  untargeted _ _ := Fields.oooModelInstr_branchTarget _ _

end ChampSim.Trace

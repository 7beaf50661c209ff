/-
The register allocator: two register alias tables, the free physical registers
and the physical register file.

`none` as a result is a failed assertion, a pop of an empty queue, or a
subscript that `at` rejects or that lies outside a table.
-/

import ChampSim.Core.Instruction
import Mathlib.Logic.Function.Basic

set_option autoImplicit false

namespace ChampSim.Core

structure PhysicalRegister where
  archRegIndex : Nat := 0
  producingInstructionId : Nat := 0
  valid : Bool := false
  busy : Bool := false
deriving DecidableEq, Repr

/-- A table has 256 entries, and `none` in one stands for -1. -/
structure RegisterAllocator where
  frontendRat : Nat → Option Nat
  backendRat : Nat → Option Nat
  freeRegisters : List Nat
  physicalRegisterFile : List PhysicalRegister

namespace RegisterAllocator

def numArchRegisters : Nat := 256

def init (numPhysicalRegisters : Nat) : RegisterAllocator where
  frontendRat _ := none
  backendRat _ := none
  freeRegisters := List.range numPhysicalRegisters
  physicalRegisterFile := List.replicate numPhysicalRegisters {}

/-- `physical_register_file.at(physreg) = value`. -/
def writeFile (alloc : RegisterAllocator) (physreg : Nat) (value : PhysicalRegister) :
    Option RegisterAllocator :=
  if physreg < alloc.physicalRegisterFile.length then
    some { alloc with physicalRegisterFile := alloc.physicalRegisterFile.set physreg value }
  else none

def renameDestRegister (alloc : RegisterAllocator) (reg producerId : Nat) :
    Option (Nat × RegisterAllocator) :=
  match alloc.freeRegisters with
  | [] => none
  | physReg :: others =>
      if reg < numArchRegisters then
        ({ alloc with
            freeRegisters := others
            frontendRat := Function.update alloc.frontendRat reg (some physReg) }.writeFile physReg
          { archRegIndex := reg, producingInstructionId := producerId, valid := false,
            busy := true }).map fun written => (physReg, written)
      else none

def renameSrcRegister (alloc : RegisterAllocator) (reg : Nat) :
    Option (Nat × RegisterAllocator) :=
  if reg < numArchRegisters then
    match alloc.frontendRat reg with
    | some phys => some (phys, alloc)
    | none =>
        match alloc.freeRegisters with
        | [] => none
        | phys :: others =>
            ({ alloc with
                freeRegisters := others
                frontendRat := Function.update alloc.frontendRat reg (some phys)
                backendRat := Function.update alloc.backendRat reg (some phys) }.writeFile phys
              { archRegIndex := reg, producingInstructionId := 0, valid := true,
                busy := true }).map fun written => (phys, written)
  else none

def completeDestRegister (alloc : RegisterAllocator) (physreg : Nat) :
    Option RegisterAllocator :=
  alloc.physicalRegisterFile[physreg]?.bind fun register =>
    alloc.writeFile physreg { register with valid := true }

def freeRegister (alloc : RegisterAllocator) (physreg : Nat) : Option RegisterAllocator :=
  (alloc.writeFile physreg
    { archRegIndex := 255, producingInstructionId := 0, valid := false, busy := false }).map
    fun written => { written with freeRegisters := written.freeRegisters ++ [physreg] }

def retireDestRegister (alloc : RegisterAllocator) (physreg : Nat) : Option RegisterAllocator :=
  alloc.physicalRegisterFile[physreg]?.bind fun register =>
    if register.archRegIndex < numArchRegisters then
      let retired := { alloc with
        backendRat := Function.update alloc.backendRat register.archRegIndex (some physreg) }
      match alloc.backendRat register.archRegIndex with
      | some oldPhysReg => retired.freeRegister oldPhysReg
      | none => some retired
    else none

def isValid (alloc : RegisterAllocator) (physreg : Nat) : Option Bool :=
  alloc.physicalRegisterFile[physreg]?.map fun register => register.valid

/-- `beyond` is what the table reads outside its 256 entries, as it does when a
number that was renamed is looked up as an architectural one. -/
def isAllocated (beyond : RegisterAllocator → Nat → Bool) (alloc : RegisterAllocator)
    (archreg : Nat) : Bool :=
  if archreg < numArchRegisters then (alloc.frontendRat archreg).isSome else beyond alloc archreg

def countFreeRegisters (alloc : RegisterAllocator) : Nat := alloc.freeRegisters.length

end RegisterAllocator

end ChampSim.Core

/-
The reader of a trace file. It reads records in chunks, fills in where each
taken branch goes from the instruction after it, and holds back the last
instruction of a chunk until the next chunk is there.
-/

import ChampSim.Library.Transition
import ChampSim.Trace.Format

set_option autoImplicit false

namespace ChampSim.Trace

open ChampSim.Core (TraceInstr)
open Transition (Machine)

/-- An input stream that sets `eof` when a read returns fewer bytes than asked for. -/
structure TraceFile where
  remaining : List Byte
  gcount : Nat := 0
  eof : Bool := false

/-- What `read` leaves in the first bytes of the destination, and the stream after it. -/
def TraceFile.read (file : TraceFile) (count : Nat) : List Byte × TraceFile :=
  let taken := file.remaining.take count
  (taken,
    { remaining := file.remaining.drop count
      gcount := taken.length
      eof := decide (taken.length < count) })

/-! ### Branch targets -/

/-- The loop of `std::adjacent_difference` after its first element. -/
def differencesAfter {Value : Type} (operation : Value → Value → Value) (previous : Value) :
    List Value → List Value
  | [] => []
  | value :: rest => operation value previous :: differencesAfter operation value rest

def adjacentDifference {Value : Type} (operation : Value → Value → Value) :
    List Value → List Value
  | [] => []
  | value :: rest => value :: differencesAfter operation value rest

def applyBranchTarget (branch target : TraceInstr) : TraceInstr :=
  { branch with
    branchTarget := if branch.isBranch && branch.branchTaken then target.ip else 0 }

def setBranchTargets (instrs : List TraceInstr) : List TraceInstr :=
  (adjacentDifference applyBranchTarget instrs.reverse).reverse

theorem differencesAfter_append {Value : Type} (operation : Value → Value → Value)
    (previous : Value) (values : List Value) (before last : Value) :
    differencesAfter operation previous (values ++ [before, last]) =
      differencesAfter operation previous (values ++ [before]) ++ [operation last before] := by
  induction values generalizing previous with
  | nil => rfl
  | cons value values ih => exact congrArg (operation value previous :: ·) (ih value)

theorem adjacentDifference_append {Value : Type} (operation : Value → Value → Value)
    (values : List Value) (before last : Value) :
    adjacentDifference operation (values ++ [before, last]) =
      adjacentDifference operation (values ++ [before]) ++ [operation last before] := by
  cases values with
  | nil => rfl
  | cons value values =>
      exact congrArg (value :: ·) (differencesAfter_append operation value values before last)

theorem setBranchTargets_cons (instr next : TraceInstr) (rest : List TraceInstr) :
    setBranchTargets (instr :: next :: rest) =
      applyBranchTarget instr next :: setBranchTargets (next :: rest) := by
  unfold setBranchTargets
  rw [List.reverse_cons, List.reverse_cons, List.append_assoc, List.singleton_append,
    adjacentDifference_append, List.reverse_append]
  rfl

theorem setBranchTargets_short {instrs : List TraceInstr} (short : instrs.length ≤ 1) :
    setBranchTargets instrs = instrs := by
  rcases instrs with _ | ⟨instr, _ | ⟨next, rest⟩⟩
  · rfl
  · rfl
  · rw [List.length_cons, List.length_cons] at short
    omega

theorem setBranchTargets_getElem? (instrs : List TraceInstr) (place : Nat) :
    (setBranchTargets instrs)[place]? = instrs[place]?.map (fun instr =>
      instrs[place + 1]?.elim instr (applyBranchTarget instr)) := by
  induction instrs generalizing place with
  | nil => rfl
  | cons instr rest ih =>
      cases rest with
      | nil =>
          have alone : setBranchTargets [instr] = [instr] := rfl
          rw [alone]
          cases place with
          | zero => rfl
          | succ place => rfl
      | cons next rest =>
          rw [setBranchTargets_cons]
          cases place with
          | zero => rfl
          | succ place => exact ih place

theorem setBranchTargets_length (instrs : List TraceInstr) :
    (setBranchTargets instrs).length = instrs.length := by
  apply Nat.le_antisymm
  · apply List.getElem?_eq_none_iff.mp
    rw [setBranchTargets_getElem?, List.getElem?_eq_none (Nat.le_refl _)]
    rfl
  · apply List.getElem?_eq_none_iff.mp
    have past := setBranchTargets_getElem? instrs (setBranchTargets instrs).length
    rw [List.getElem?_eq_none (Nat.le_refl _)] at past
    exact Option.map_eq_none_iff.mp past.symm

theorem setBranchTargets_tail (instr : TraceInstr) (rest : List TraceInstr) :
    (setBranchTargets (instr :: rest)).tail = setBranchTargets rest := by
  cases rest with
  | nil => rfl
  | cons next rest =>
      rw [setBranchTargets_cons]
      rfl

/-! ### The reader -/

structure BulkTracereader where
  cpu : Byte
  eof_ : Bool := false
  traceFile : TraceFile
  instrBuffer : List TraceInstr := []

namespace BulkTracereader

def bufferSize : Nat := 128

def refreshThresh : Nat := 1

variable {Record : Type} (format : TraceFormat Record)

def eof (reader : BulkTracereader) : Bool :=
  reader.traceFile.eof && decide (reader.instrBuffer.length ≤ refreshThresh)

/-- The branch of `operator()` that reads from the file. -/
def refresh (reader : BulkTracereader) : BulkTracereader :=
  let (rawBuf, traceFile) := reader.traceFile.read ((bufferSize - refreshThresh) * format.size)
  let records := format.decode (traceFile.gcount / format.size) rawBuf
  { reader with
    eof_ := traceFile.eof
    traceFile := traceFile
    instrBuffer := setBranchTargets (reader.instrBuffer ++ records.map (format.inflate reader.cpu)) }

/-- `operator()`, or `none` where it takes the front of an empty buffer. -/
def call (reader : BulkTracereader) : Option (TraceInstr × BulkTracereader) :=
  let filled := if reader.instrBuffer.length ≤ refreshThresh then reader.refresh format else reader
  match filled.instrBuffer with
  | [] => none
  | retval :: rest => some (retval, { filled with instrBuffer := rest })

def start (cpu : Byte) (records : List Record) : BulkTracereader :=
  { cpu := cpu, traceFile := { remaining := format.encode records } }

end BulkTracereader

end ChampSim.Trace

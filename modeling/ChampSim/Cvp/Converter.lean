/-
The conversion of a CVP-1 trace to a trace of the simulator: the registers of a
record say what kind of branch it is, and data moves away from code.
-/

import ChampSim.Cvp.Pages
import ChampSim.Trace.Repeatable

set_option autoImplicit false

namespace ChampSim.Cvp

open ChampSim.Core (TraceInstr BranchType regStackPointer regFlags regInstructionPointer)
open Trace (InputInstr Repeatable inputInstr)
open Trace.BulkTracereader (targeted)

/-- The types of operations that the conversion finds. -/
inductive OpType where
  | op
  | retUncond
  | jmpDirectUncond
  | jmpIndirectUncond
  | callDirectUncond
  | callIndirectUncond
  | jmpDirectCond
deriving DecidableEq, Repr

def regAx : Byte := 56

def regIp : Byte := BitVec.ofNat 8 regInstructionPointer

def regSp : Byte := BitVec.ofNat 8 regStackPointer

def regFl : Byte := BitVec.ofNat 8 regFlags

namespace CvpTrace

/-- A call writes the link register, and a return reads it. -/
def opType (trace : CvpTrace) : OpType :=
  if trace.type.isBranch then
    if trace.type = .condBranchInstClass then .jmpDirectCond
    else if trace.inputRegNames = [30] then .retUncond
    else if trace.outputRegNames = [30] then
      if trace.type = .uncondIndirectBranchInstClass then .callIndirectUncond
      else .callDirectUncond
    else if trace.type = .uncondIndirectBranchInstClass then .jmpIndirectUncond
    else .jmpDirectUncond
  else .op

/-- The registers that a branch of a type names, where the others are zero. -/
def branchRegisters : OpType → Vector Byte 2 × Vector Byte 4
  | .op => (#v[0, 0], #v[0, 0, 0, 0])
  | .jmpDirectUncond => (#v[regIp, 0], #v[0, 0, 0, 0])
  | .jmpDirectCond => (#v[regIp, 0], #v[regIp, regFl, 0, 0])
  | .callIndirectUncond => (#v[regIp, regSp], #v[regIp, regSp, regAx, 0])
  | .callDirectUncond => (#v[regIp, regSp], #v[regIp, regSp, 0, 0])
  | .jmpIndirectUncond => (#v[regIp, 0], #v[regAx, 0, 0, 0])
  | .retUncond => (#v[regIp, regSp], #v[regSp, 0, 0, 0])

/-- `branch_taken` of a branch. -/
def branchTaken (trace : CvpTrace) : Byte :=
  match trace.opType with
  | .jmpDirectUncond => trace.taken
  | .jmpDirectCond => trace.taken
  | _ => 1

def branchRecord (trace : CvpTrace) : InputInstr where
  ip := trace.pc
  isBranch := 1
  branchTaken := trace.branchTaken
  destinationRegisters := (branchRegisters trace.opType).1
  sourceRegisters := (branchRegisters trace.opType).2
  destinationMemory := #v[0, 0]
  sourceMemory := #v[0, 0, 0, 0]

/-- No register of another instruction is one of those that make a branch, nor zero. -/
def renamed (register : Byte) : Byte :=
  if register = regIp then 64
  else if register = regSp then 65
  else if register = regFl then 66
  else if register = 0 then 67
  else register

/-- A record of an instruction that is no branch. Its `branch_taken` is never set. -/
def plainRecord (trace : CvpTrace) (unset : Byte) (destination source : BitVec 64) : InputInstr where
  ip := trace.pc
  isBranch := 0
  branchTaken := unset
  destinationRegisters := #v[renamed (trace.outputRegNames.headD 0), 0]
  sourceRegisters := .ofFn fun index : Fin 4 =>
    (trace.inputRegNames[index.val]?).elim 0 renamed
  destinationMemory := #v[destination, 0]
  sourceMemory := #v[source, 0, 0, 0]

/-- One pass of the loop of `main`, or `none` where an assertion fails. -/
def convert (pages : Pages) (unset : Byte) (remap : Remap) (trace : CvpTrace) :
    Option (InputInstr × Remap) :=
  if trace.type.isBranch then
    if trace.type = .condBranchInstClass ∨ trace.target ≠ 0 then some (trace.branchRecord, remap)
    else none
  else
    match trace.type with
    | .loadInstClass =>
        let moved := pages.transform remap trace.ea
        some (trace.plainRecord unset 0 moved.1, moved.2)
    | .storeInstClass =>
        let moved := pages.transform remap trace.ea
        some (trace.plainRecord unset moved.1 0, moved.2)
    | .undefInstClass => none
    | _ => some (trace.plainRecord unset 0 0, remap)

end CvpTrace

/-- The loop of `main`: what it leaves in `branch_taken` of each record that is no branch is given. -/
def convertEach (pages : Pages) (unset : Nat → Byte) :
    Nat → Remap → List CvpTrace → Option (List InputInstr)
  | _, _, [] => some []
  | number, remap, trace :: rest =>
      (trace.convert pages (unset number) remap).bind fun converted =>
        (convertEach pages unset (number + 1) converted.2 rest).map (converted.1 :: ·)

/-- `main` with the name of a file. -/
def convertFile (unset : Nat → Byte) (file : List Byte) : Option (List InputInstr) :=
  match CvpTrace.readFile file with
  | .ok traces => convertEach (preprocess traces) unset 0 {} traces
  | .error _ => none

/-! ### What the simulator makes of a record -/

def OpType.branchType : OpType → BranchType
  | .op => .notBranch
  | .retUncond => .branchReturn
  | .jmpDirectUncond => .branchDirectJump
  | .jmpIndirectUncond => .branchIndirect
  | .callDirectUncond => .branchDirectCall
  | .callIndirectUncond => .branchIndirectCall
  | .jmpDirectCond => .branchConditional

namespace CvpTrace

/-- Only a conditional branch may be not taken. -/
def isTaken (trace : CvpTrace) : Bool :=
  trace.type.isBranch && (trace.type ≠ .condBranchInstClass || trace.taken ≠ 0)

theorem opType_op (trace : CvpTrace) : trace.opType = .op ↔ trace.type.isBranch = false := by
  unfold opType
  cases trace.type.isBranch with
  | false => simp
  | true =>
      simp only [↓reduceIte]
      split_ifs <;> simp

theorem opType_jmpDirectCond (trace : CvpTrace) :
    trace.opType = .jmpDirectCond ↔
      trace.type.isBranch = true ∧ trace.type = .condBranchInstClass := by
  unfold opType
  cases trace.type.isBranch with
  | false => simp
  | true =>
      simp only [↓reduceIte]
      split_ifs with conditional <;> simp [conditional]

theorem inflate_branchRecord (cpu : Byte) (trace : CvpTrace) (branch : trace.type.isBranch = true) :
    inputInstr.inflate cpu trace.branchRecord =
      { ip := trace.pc
        isBranch := true
        branchTaken := trace.isTaken
        branch := trace.opType.branchType
        asid := (cpu, cpu)
        destinationRegisters :=
          ((branchRegisters trace.opType).1.toList.filter (· ≠ 0)).map (fun register => register.toFin)
        sourceRegisters := ((branchRegisters trace.opType).2.toList.filter (· ≠ 0)).map
          (fun register => register.toFin) } := by
  have conditional := opType_jmpDirectCond trace
  have plain := opType_op trace
  change InputInstr.oooModelInstr cpu trace.branchRecord = _
  unfold InputInstr.oooModelInstr branchRecord branchTaken isTaken
  rw [branch]
  cases type : trace.opType with
  | op =>
      rw [plain.mp type] at branch
      cases branch
  | jmpDirectCond =>
      rw [(conditional.mp type).2]
      rfl
  | _ =>
      have direct : trace.type ≠ .condBranchInstClass := by
        intro same
        rw [conditional.mpr ⟨branch, same⟩] at type
        cases type
      rw [decide_eq_true direct]
      rfl

/-- The registers of an instruction that is no branch, in order. -/
def sources (trace : CvpTrace) : List (Fin 256) :=
  (trace.inputRegNames.take 4).map (fun register => (renamed register).toFin)

theorem renamed_ne_zero (register : Byte) : ¬renamed register = 0 := by
  revert register
  decide

theorem renamed_ne_ip (register : Byte) :
    ¬(renamed register).toFin.val = regInstructionPointer := by
  revert register
  decide

theorem plainRecord_destinations (trace : CvpTrace) (unset : Byte)
    (destination source : BitVec 64) :
    (((trace.plainRecord unset destination source).destinationRegisters.toList.filter (· ≠ 0)).map
      (fun register => register.toFin)) = [(renamed (trace.outputRegNames.headD 0)).toFin] := by
  change (([renamed (trace.outputRegNames.headD 0), 0] : List Byte).filter _).map _ = _
  have some := renamed_ne_zero (trace.outputRegNames.headD 0)
  simp only [List.filter_cons, some, ne_eq, not_false_eq_true, not_true_eq_false, decide_true,
    decide_false, Bool.false_eq_true, ↓reduceIte, List.filter_nil, List.map_cons, List.map_nil]

theorem plainRecord_sources (trace : CvpTrace) (unset : Byte) (destination source : BitVec 64) :
    (((trace.plainRecord unset destination source).sourceRegisters.toList.filter (· ≠ 0)).map
      (fun register => register.toFin)) = trace.sources := by
  have some : ∀ register, ¬renamed register = 0#8 := renamed_ne_zero
  unfold sources
  change ((List.ofFn fun index : Fin 4 => (trace.inputRegNames[index.val]?).elim 0 renamed).filter
    _).map _ = _
  rcases trace.inputRegNames with _ | ⟨first, _ | ⟨second, _ | ⟨third, _ | ⟨fourth, rest⟩⟩⟩⟩ <;>
    simp [List.ofFn, Fin.foldr, Fin.foldr.loop, some]

theorem inflate_plainRecord (cpu : Byte) (trace : CvpTrace) (unset : Byte)
    (destination source : BitVec 64) :
    inputInstr.inflate cpu (trace.plainRecord unset destination source) =
      { ip := trace.pc
        asid := (cpu, cpu)
        destinationRegisters := [(renamed (trace.outputRegNames.headD 0)).toFin]
        sourceRegisters := trace.sources
        destinationMemory := [destination].filter (· ≠ 0)
        sourceMemory := [source].filter (· ≠ 0) } := by
  change InputInstr.oooModelInstr cpu (trace.plainRecord unset destination source) = _
  unfold InputInstr.oooModelInstr Trace.Fields.oooModelInstr
  dsimp only
  rw [plainRecord_destinations, plainRecord_sources]
  have noBranch : [(renamed (trace.outputRegNames.headD 0)).toFin].any
      (fun register => decide (register.val = regInstructionPointer)) = false := by
    rw [List.any_cons, List.any_nil, decide_eq_false (renamed_ne_ip _)]
    rfl
  simp only [noBranch, Bool.and_false, Bool.false_and, Bool.false_eq_true, ↓reduceIte]
  rfl

/-! ### One record -/

def address (trace : CvpTrace) (pages : Pages) (remap : Remap) : BitVec 64 :=
  place (home pages remap (pageOf trace.ea)) trace.ea

def recordOf (trace : CvpTrace) (pages : Pages) (remap : Remap) (unset : Byte) : InputInstr :=
  if trace.type.isBranch then trace.branchRecord
  else
    trace.plainRecord unset
      (if trace.type = .storeInstClass then trace.address pages remap else 0)
      (if trace.type = .loadInstClass then trace.address pages remap else 0)

def Convertible (trace : CvpTrace) : Prop :=
  if trace.type.isBranch then trace.type = .condBranchInstClass ∨ trace.target ≠ 0
  else trace.type ≠ .undefInstClass

instance (trace : CvpTrace) : Decidable trace.Convertible := by
  unfold Convertible
  infer_instance

theorem convert_isSome (pages : Pages) (unset : Byte) (remap : Remap) (trace : CvpTrace) :
    (trace.convert pages unset remap).isSome = true ↔ trace.Convertible := by
  unfold convert Convertible
  cases branch : trace.type.isBranch with
  | true =>
      simp only [↓reduceIte]
      by_cases fits : trace.type = .condBranchInstClass ∨ trace.target ≠ 0
      · rw [if_pos fits]
        exact ⟨fun _some => fits, fun _fits => rfl⟩
      · rw [if_neg fits]
        constructor
        · intro impossible
          cases impossible
        · intro opposite
          exact absurd opposite fits
  | false =>
      simp only [Bool.false_eq_true, ↓reduceIte]
      split <;> simp_all

variable {pages : Pages} {remap : Remap} {moved : List Page}

theorem convert_spec (known : Moved pages remap moved) (few : pages.Few) {trace : CvpTrace}
    {unset : Byte} {record : InputInstr} {next : Remap}
    (converted : trace.convert pages unset remap = some (record, next)) :
    ∃ further, Moved pages next further ∧ Keeps remap next moved further ∧
      (trace.type.isMemory = true → Homed pages further (pageOf trace.ea)) ∧
      record = trace.recordOf pages next unset := by
  unfold convert at converted
  unfold recordOf
  cases branch : trace.type.isBranch with
  | true =>
      rw [if_pos branch] at converted
      split at converted
      · cases converted
        refine ⟨moved, known, .refl remap moved, ?_, (if_pos rfl).symm⟩
        intro memory
        rw [trace.type.isMemory_isBranch memory] at branch
        cases branch
      · cases converted
  | false =>
      simp only [branch, Bool.false_eq_true, ↓reduceIte] at converted ⊢
      split at converted
      · rename_i type
        cases converted
        obtain ⟨further, after, keeps, homed, same⟩ := known.transform few trace.ea
        refine ⟨further, after, keeps, fun _memory => homed, ?_⟩
        simp only [type, reduceCtorEq, ↓reduceIte]
        rw [same]
        rfl
      · rename_i type
        cases converted
        obtain ⟨further, after, keeps, homed, same⟩ := known.transform few trace.ea
        refine ⟨further, after, keeps, fun _memory => homed, ?_⟩
        simp only [type, reduceCtorEq, ↓reduceIte]
        rw [same]
        rfl
      · cases converted
      · rename_i noLoad noStore _defined
        cases converted
        refine ⟨moved, known, .refl remap moved, ?_, ?_⟩
        · intro memory
          unfold InstClass.isMemory at memory
          rw [decide_eq_false noLoad, decide_eq_false noStore] at memory
          cases memory
        · rw [if_neg noStore, if_neg noLoad]

theorem recordOf_keeps {later : Remap} {further : List Page}
    (keeps : Keeps remap later moved further) (trace : CvpTrace)
    (homed : trace.type.isMemory = true → Homed pages moved (pageOf trace.ea)) (unset : Byte) :
    trace.recordOf pages later unset = trace.recordOf pages remap unset := by
  unfold recordOf
  by_cases memory : trace.type.isMemory = true
  · have same : trace.address pages later = trace.address pages remap := by
      unfold address
      rw [(keeps.home (homed memory)).1]
    rw [same]
  · unfold InstClass.isMemory at memory
    rw [Bool.or_eq_true, decide_eq_true_iff, decide_eq_true_iff, not_or] at memory
    rw [if_neg memory.1, if_neg memory.1, if_neg memory.2, if_neg memory.2]

end CvpTrace

/-! ### A whole trace -/

variable {pages : Pages} {remap : Remap} {moved : List Page}

theorem convertEach_spec (known : Moved pages remap moved) (few : pages.Few) (unset : Nat → Byte)
    (number : Nat) {traces : List CvpTrace} {records : List InputInstr}
    (converted : convertEach pages unset number remap traces = some records) :
    ∃ last further, Moved pages last further ∧ Keeps remap last moved further ∧
      (∀ trace ∈ traces, trace.type.isMemory = true → Homed pages further (pageOf trace.ea)) ∧
      records.length = traces.length ∧ ∀ (place : Nat) (trace : CvpTrace),
        traces[place]? = some trace →
          records[place]? = some (trace.recordOf pages last (unset (number + place))) := by
  induction traces generalizing number remap moved records with
  | nil =>
      cases converted
      refine ⟨remap, moved, known, .refl remap moved, ?_, rfl, ?_⟩
      · intro trace impossible
        cases impossible
      · intro place trace impossible
        cases impossible
  | cons trace rest ih =>
      obtain ⟨⟨record, next⟩, first, others⟩ := Option.bind_eq_some_iff.mp converted
      obtain ⟨later, remaining, same⟩ := Option.map_eq_some_iff.mp others
      subst same
      obtain ⟨middle, movedNext, keeps, homed, isRecord⟩ := CvpTrace.convert_spec known few first
      obtain ⟨last, further, movedLast, keepsLast, homedLast, length, records⟩ :=
        ih movedNext (number + 1) remaining
      refine ⟨last, further, movedLast, keeps.trans keepsLast, ?_, congrArg (· + 1) length, ?_⟩
      · intro other member memory
        rcases List.mem_cons.mp member with here | later
        · rw [here] at memory ⊢
          exact (keepsLast.home (homed memory)).2
        · exact homedLast other later memory
      · intro place other present
        cases place with
        | zero =>
            cases present
            rw [trace.recordOf_keeps keepsLast homed]
            exact congrArg some isRecord
        | succ place =>
            have found := records place other present
            rw [Nat.add_right_comm] at found
            exact found

/-- Each record is made of its own trace record, whatever has moved. -/
def MadeOf (trace : CvpTrace) (record : InputInstr) : Prop :=
  if trace.type.isBranch then record = trace.branchRecord
  else ∃ unset destination source, record = trace.plainRecord unset destination source

theorem convert_madeOf {trace : CvpTrace} {unset : Byte} {record : InputInstr} {next : Remap}
    (converted : trace.convert pages unset remap = some (record, next)) : MadeOf trace record := by
  unfold CvpTrace.convert at converted
  unfold MadeOf
  cases branch : trace.type.isBranch with
  | true =>
      simp only [branch, ↓reduceIte] at converted ⊢
      split at converted
      · cases converted
        rfl
      · cases converted
  | false =>
      simp only [branch, Bool.false_eq_true, ↓reduceIte] at converted ⊢
      split at converted
      · cases converted
        exact ⟨_, _, _, rfl⟩
      · cases converted
        exact ⟨_, _, _, rfl⟩
      · cases converted
      · cases converted
        exact ⟨_, _, _, rfl⟩

theorem convertEach_madeOf (pages : Pages) (unset : Nat → Byte) (number : Nat) (remap : Remap)
    (traces : List CvpTrace) (convertible : ∀ trace ∈ traces, trace.Convertible) :
    ∃ records, convertEach pages unset number remap traces = some records ∧
      List.Forall₂ MadeOf traces records := by
  induction traces generalizing number remap with
  | nil => exact ⟨[], rfl, .nil⟩
  | cons trace rest ih =>
      obtain ⟨⟨record, next⟩, first⟩ := Option.isSome_iff_exists.mp
        ((trace.convert_isSome pages (unset number) remap).mpr (convertible trace List.mem_cons_self))
      obtain ⟨records, others, made⟩ := ih (number + 1) next
        (fun other member => convertible other (List.mem_cons_of_mem _ member))
      refine ⟨record :: records, ?_, .cons (convert_madeOf first) made⟩
      unfold convertEach
      rw [first, Option.bind_some, others]
      rfl

/-! ### What the simulator reads of a converted trace -/

/-- An instruction as the simulator reads it says of its record what a CVP-1 trace says. -/
structure Means (trace : CvpTrace) (next : Option CvpTrace) (instr : TraceInstr) : Prop where
  ip : instr.ip = trace.pc
  isBranch : instr.isBranch = trace.type.isBranch
  branch : instr.branch = trace.opType.branchType
  branchTaken : instr.branchTaken = decide (trace.taken ≠ 0)
  branchTarget : instr.branchTarget = if trace.taken ≠ 0 then next.elim 0 CvpTrace.pc else 0
  registers : trace.type.isBranch = false →
    instr.destinationRegisters = [(CvpTrace.renamed (trace.outputRegNames.headD 0)).toFin] ∧
      instr.sourceRegisters = trace.sources

theorem isTaken_eq {trace : CvpTrace} (formed : trace.WellFormed) :
    trace.isTaken = decide (trace.taken ≠ 0) := by
  have fits := formed.branch
  unfold CvpTrace.BranchFits at fits
  unfold CvpTrace.isTaken
  cases branch : trace.type.isBranch with
  | true =>
      rw [branch, if_pos rfl] at fits
      by_cases taken : trace.taken = 0
      · rw [(fits taken).1, taken]
        rfl
      · rw [decide_eq_true (show trace.taken ≠ 0 from taken), Bool.or_true, Bool.true_and]
  | false =>
      rw [branch, if_neg Bool.false_ne_true] at fits
      rw [show trace.taken = 0 from congrArg Prod.fst fits]
      rfl

theorem MadeOf.pc {trace : CvpTrace} {record : InputInstr} (made : MadeOf trace record) (cpu : Byte) :
    (inputInstr.inflate cpu record).ip = trace.pc := by
  unfold MadeOf at made
  cases branch : trace.type.isBranch with
  | true =>
      rw [branch, if_pos rfl] at made
      rw [made, trace.inflate_branchRecord cpu branch]
  | false =>
      rw [branch, if_neg Bool.false_ne_true] at made
      obtain ⟨unset, destination, source, same⟩ := made
      rw [same, trace.inflate_plainRecord]

theorem means_of_inflated {trace : CvpTrace} {instr : TraceInstr} {next : Option CvpTrace}
    {after : Option TraceInstr} (ip : instr.ip = trace.pc)
    (isBranch : instr.isBranch = trace.type.isBranch)
    (branch : instr.branch = trace.opType.branchType)
    (branchTaken : instr.branchTaken = decide (trace.taken ≠ 0))
    (onlyBranches : trace.type.isBranch = false → trace.taken = 0)
    (registers : trace.type.isBranch = false →
      instr.destinationRegisters = [(CvpTrace.renamed (trace.outputRegNames.headD 0)).toFin] ∧
        instr.sourceRegisters = trace.sources)
    (untargeted : instr.branchTarget = 0)
    (follows : next.map CvpTrace.pc = after.map TraceInstr.ip) :
    Means trace next (after.elim instr (Trace.applyBranchTarget instr)) := by
  cases after with
  | none =>
      rw [Option.map_eq_none_iff.mp follows]
      refine ⟨ip, isBranch, branch, branchTaken, ?_, registers⟩
      rw [Option.elim_none, Option.elim_none, ite_self]
      exact untargeted
  | some target =>
      obtain ⟨following, isNext, same⟩ := Option.map_eq_some_iff.mp follows
      rw [isNext]
      refine ⟨ip, isBranch, branch, branchTaken, ?_, registers⟩
      change (if (instr.isBranch && instr.branchTaken) = true then target.ip else 0) = _
      rw [Option.elim_some, isBranch, branchTaken, same]
      by_cases taken : trace.taken = 0
      · simp [taken]
      · have isBranchHere : trace.type.isBranch = true := by
          by_contra none
          exact taken (onlyBranches (Bool.not_eq_true _ |>.mp none))
        simp [isBranchHere]

theorem MadeOf.means {trace : CvpTrace} {record : InputInstr} (made : MadeOf trace record)
    (formed : trace.WellFormed) (cpu : Byte) {next : Option CvpTrace} {after : Option TraceInstr}
    (follows : next.map CvpTrace.pc = after.map TraceInstr.ip) :
    Means trace next (after.elim (inputInstr.inflate cpu record)
      (Trace.applyBranchTarget (inputInstr.inflate cpu record))) := by
  have taken := isTaken_eq formed
  have fits := formed.branch
  unfold MadeOf at made
  unfold CvpTrace.BranchFits at fits
  cases branch : trace.type.isBranch with
  | true =>
      rw [branch, if_pos rfl] at made
      rw [made, trace.inflate_branchRecord cpu branch]
      apply means_of_inflated rfl branch.symm rfl taken _ _ rfl follows
      · intro impossible
        rw [branch] at impossible
        cases impossible
      · intro impossible
        rw [branch] at impossible
        cases impossible
  | false =>
      rw [branch, if_neg Bool.false_ne_true] at made fits
      obtain ⟨unset, destination, source, same⟩ := made
      have none : trace.taken = 0 := congrArg Prod.fst fits
      rw [same, trace.inflate_plainRecord]
      apply means_of_inflated rfl branch.symm _ _ (fun _branch => none) (fun _branch => ⟨rfl, rfl⟩)
        rfl follows
      · rw [(CvpTrace.opType_op trace).mpr branch]
        rfl
      · rw [none]
        rfl

theorem convertFile_madeOf (unset : Nat → Byte) {file : List Byte} {traces : List CvpTrace}
    (lies : CvpTrace.Lies file traces) (convertible : ∀ trace ∈ traces, trace.Convertible) :
    ∃ records, convertFile unset file = some records ∧ List.Forall₂ MadeOf traces records := by
  obtain ⟨records, converted, made⟩ :=
    convertEach_madeOf (preprocess traces) unset 0 {} traces convertible
  refine ⟨records, ?_, made⟩
  unfold convertFile CvpTrace.readFile
  rw [(CvpTrace.readRecords_iff file.length file (Nat.le_refl _) traces).mpr lies]
  exact converted

/-- The instructions of a converted trace, each with the target that the next one gives it, mean
what the records of the trace say. -/
theorem targeted_means {file : List Byte} {traces : List CvpTrace} {records : List InputInstr}
    (lies : CvpTrace.Lies file traces) (made : List.Forall₂ MadeOf traces records) (cpu : Byte)
    (place : Nat) (instr : TraceInstr) (present : (targeted inputInstr cpu records)[place]? = some instr) :
    ∃ trace, traces[place]? = some trace ∧ Means trace traces[place + 1]? instr := by
  have length := made.length_eq
  have each : ∀ (place : Nat) (trace : CvpTrace), traces[place]? = some trace →
      ∃ record, records[place]? = some record ∧ MadeOf trace record := by
    intro place trace present
    obtain ⟨within, here⟩ := List.getElem?_eq_some_iff.mp present
    have inside : place < records.length := by omega
    refine ⟨records[place], List.getElem?_eq_getElem inside, ?_⟩
    rw [← here]
    exact made.get within inside
  have inside : place < traces.length := by
    have bound := (List.getElem?_eq_some_iff.mp present).1
    rw [targeted, Trace.setBranchTargets_length, List.length_map] at bound
    omega
  have isTrace := List.getElem?_eq_getElem inside
  refine ⟨traces[place], isTrace, ?_⟩
  obtain ⟨record, isRecord, madeOf⟩ := each place _ isTrace
  unfold targeted at present
  rw [Trace.setBranchTargets_getElem?, List.getElem?_map, List.getElem?_map, isRecord] at present
  cases present
  apply madeOf.means (lies.1 _ (List.getElem_mem inside)) cpu
  cases next : traces[place + 1]? with
  | none =>
      have past := List.getElem?_eq_none_iff.mp next
      rw [List.getElem?_eq_none (by omega)]
      rfl
  | some following =>
      obtain ⟨later, isLater, ofFollowing⟩ := each (place + 1) following next
      rw [isLater]
      exact congrArg some (ofFollowing.pc cpu).symm

/-- Every CVP-1 trace whose branches go somewhere is converted, whatever is left in the bytes that
are never set, to as many records. The reader that repeats it yields with each call an instruction
that means what a record of the trace says, one round after the other. -/
theorem convertFile_means (unset : Nat → Byte) (cpu : Byte) (file : List Byte)
    (traces : List CvpTrace) (lies : CvpTrace.Lies file traces) (filled : traces ≠ [])
    (convertible : ∀ trace ∈ traces, trace.Convertible) :
    ∃ records, convertFile unset file = some records ∧ records.length = traces.length ∧
      ∀ calls : List Unit, ∃ finish,
        (Repeatable.repeats inputInstr).run ([], .start inputInstr cpu records) calls =
          some finish ∧
        finish.1.length = calls.length ∧
        ∀ (call : Nat) (instr : TraceInstr), finish.1[call]? = some instr →
          ∃ trace, traces[call % Repeatable.perRound records]? = some trace ∧
            Means trace traces[call % Repeatable.perRound records + 1]? instr := by
  obtain ⟨records, converted, made⟩ := convertFile_madeOf unset lies convertible
  have length := made.length_eq
  have some' : records ≠ [] := by
    intro none
    rw [none, List.length_nil] at length
    exact filled (List.eq_nil_of_length_eq_zero length)
  refine ⟨records, converted, length.symm, ?_⟩
  intro calls
  obtain ⟨finish, ran, yielded, rounds⟩ := Repeatable.repeats_rounds inputInstr cpu records some' calls
  refine ⟨finish, ran, yielded, ?_⟩
  intro call instr present
  have within := (List.getElem?_eq_some_iff.mp present).1
  rw [rounds call (yielded ▸ within)] at present
  exact targeted_means lies made cpu _ instr present

/-- A load from a page of code, a jump back to it, and the load again. -/
def loadAndJump : List CvpTrace :=
  let load : CvpTrace :=
    { pc := 0x1000
      type := .loadInstClass
      ea := 0x1100
      accessSize := 8
      taken := 0
      target := 0
      inputRegNames := [1]
      outputRegNames := [2]
      outputRegValues := [(7, 0)] }
  [load,
   { pc := 0x1004
     type := .uncondDirectBranchInstClass
     ea := 0
     accessSize := 0
     taken := 1
     target := 0x1000
     inputRegNames := []
     outputRegNames := []
     outputRegValues := [] },
   load]

theorem loadAndJump_lies : CvpTrace.Lies (loadAndJump.flatMap CvpTrace.bytes) loadAndJump := by
  refine ⟨?_, [], Nat.succ_pos _, (List.append_nil _).symm⟩
  intro trace member
  have either : trace ∈ loadAndJump.take 2 := by
    rcases List.mem_cons.mp member with load | rest
    · exact load ▸ List.mem_cons_self
    · rcases List.mem_cons.mp rest with jump | last
      · exact jump ▸ List.mem_cons_of_mem _ List.mem_cons_self
      · exact List.mem_singleton.mp last ▸ List.mem_cons_self
  rcases List.mem_cons.mp either with load | rest
  · subst load
    refine ⟨?_, rfl, ?_, ?_, .cons (Or.inl ⟨rfl, rfl⟩) .nil⟩
    · intro impossible
      cases impossible
    · exact Nat.lt_add_of_pos_left (Nat.succ_pos _)
    · exact Nat.lt_add_of_pos_left (Nat.succ_pos _)
  · rw [List.mem_singleton.mp rest]
    refine ⟨fun _none => rfl, ?_, Nat.succ_pos _, Nat.succ_pos _, .nil⟩
    intro impossible
    cases impossible

/-- The second call of each round yields the jump, with the load that follows as its target. -/
theorem convertFile_means_loadAndJump : ∃ records finish instr,
    convertFile (fun _number => 255) (loadAndJump.flatMap CvpTrace.bytes) = some records ∧
      (Repeatable.repeats inputInstr).run ([], .start inputInstr 0 records)
        (List.replicate 4 ()) = some finish ∧
      finish.1[3]? = some instr ∧ instr.isBranch = true ∧ instr.branchTarget = 0x1000 := by
  obtain ⟨records, converted, length, reads⟩ := convertFile_means (fun _number => 255) 0 _
    loadAndJump loadAndJump_lies (by decide) (by decide)
  obtain ⟨finish, ran, yielded, means⟩ := reads (List.replicate 4 ())
  have within : 3 < finish.1.length := by
    rw [yielded]
    decide
  have round : Repeatable.perRound records = 2 := by
    have three : records.length = 3 := length
    have held : ¬Trace.BulkTracereader.YieldsLast records := by
      unfold Trace.BulkTracereader.YieldsLast
      rw [three]
      decide
    unfold Repeatable.perRound
    rw [if_neg held, three]
  obtain ⟨trace, isTrace, meant⟩ := means 3 finish.1[3] (List.getElem?_eq_getElem within)
  rw [round] at isTrace meant
  cases isTrace
  exact ⟨records, finish, _, converted, ran, List.getElem?_eq_getElem within, meant.isBranch,
    meant.branchTarget⟩

/-! ### Where the simulator finds the data -/

/-- The address of a load or a store in a record of the simulator. -/
def dataAddress (trace : CvpTrace) (record : InputInstr) : BitVec 64 :=
  if trace.type = .storeInstClass then record.destinationMemory[0] else record.sourceMemory[0]

theorem dataAddress_recordOf (trace : CvpTrace) (memory : trace.type.isMemory = true)
    (pages : Pages) (remap : Remap) (unset : Byte) :
    dataAddress trace (trace.recordOf pages remap unset) = trace.address pages remap := by
  unfold dataAddress CvpTrace.recordOf
  rw [trace.type.isMemory_isBranch memory, if_neg Bool.false_ne_true]
  unfold InstClass.isMemory at memory
  rw [Bool.or_eq_true, decide_eq_true_iff, decide_eq_true_iff] at memory
  rcases memory with load | store
  · rw [load]
    rfl
  · rw [store]
    rfl

theorem preprocess_few (traces : List CvpTrace) (short : traces.length < 2 ^ 49) :
    (preprocess traces).Few := by
  have codes : (preprocess traces).code.length = traces.length := List.length_map _
  have filtered := List.length_filter_le (fun trace : CvpTrace => trace.type.isMemory) traces
  have datas : (preprocess traces).data.length =
      (traces.filter (fun trace => trace.type.isMemory)).length := List.length_map _
  unfold Pages.Few Pages.count
  omega

/-- Over a whole conversion the data of each page goes to one page: to its own
unless it has code, never to one that has code, and never to one where the data
of another page goes, so two accesses meet after the conversion exactly where
they met before it. -/
theorem convertFile_relocates (unset : Nat → Byte) (file : List Byte) (traces : List CvpTrace)
    (lies : CvpTrace.Lies file traces) (short : traces.length < 2 ^ 49)
    (records : List InputInstr) (converted : convertFile unset file = some records) :
    ∃ homeOf : Page → Page,
      (∀ page, page ∉ (preprocess traces).code → homeOf page = page) ∧
      (∀ (index : Nat) (trace : CvpTrace), traces[index]? = some trace →
        trace.type.isMemory = true → ∃ record, records[index]? = some record ∧
          dataAddress trace record = place (homeOf (pageOf trace.ea)) trace.ea ∧
            pageOf (dataAddress trace record) ∉ (preprocess traces).code) ∧
      ∀ first ∈ traces, ∀ second ∈ traces, first.type.isMemory = true →
        second.type.isMemory = true →
          (homeOf (pageOf first.ea) = homeOf (pageOf second.ea) →
            pageOf first.ea = pageOf second.ea) ∧
          (place (homeOf (pageOf first.ea)) first.ea = place (homeOf (pageOf second.ea)) second.ea ↔
            first.ea = second.ea) := by
  have read := (CvpTrace.readRecords_iff file.length file (Nat.le_refl _) traces).mpr lies
  have few := preprocess_few traces short
  unfold convertFile CvpTrace.readFile at converted
  rw [read] at converted
  obtain ⟨last, further, known, -, homed, -, each⟩ :=
    convertEach_spec (start_moved (preprocess traces)) few unset 0 converted
  have isData : ∀ trace ∈ traces, trace.type.isMemory = true →
      pageOf trace.ea ∈ (preprocess traces).data := by
    intro trace member memory
    exact List.mem_map.mpr ⟨trace, List.mem_filter.mpr ⟨member, memory⟩, rfl⟩
  have lands : ∀ trace ∈ traces, trace.type.isMemory = true →
      pageOf (place (home (preprocess traces) last (pageOf trace.ea)) trace.ea) =
        home (preprocess traces) last (pageOf trace.ea) := by
    intro trace member memory
    exact pageOf_place
      (known.home_addressed few (addressed_pageOf _) (homed trace member memory)) _
  refine ⟨home (preprocess traces) last, ?_, ?_, ?_⟩
  · intro page noCode
    exact if_neg noCode
  · intro index trace present memory
    have member := List.mem_of_getElem? present
    have address := dataAddress_recordOf trace memory (preprocess traces) last (unset (0 + index))
    refine ⟨_, each index trace present, address, ?_⟩
    rw [address]
    unfold CvpTrace.address
    rw [lands trace member memory]
    exact known.home_apart (homed trace member memory)
  · intro first isFirst second isSecond memory memorySecond
    have injective := known.home_injective (homed first isFirst memory)
      (homed second isSecond memorySecond) (isData first isFirst memory)
      (isData second isSecond memorySecond)
    refine ⟨injective, ?_, ?_⟩
    · intro same
      have pages := congrArg pageOf same
      rw [lands first isFirst memory, lands second isSecond memorySecond] at pages
      have equal := injective pages
      rw [equal] at same
      have moves := place_moves same (pageOf second.ea)
      rw [place_pageOf, ← equal, place_pageOf] at moves
      exact moves
    · intro same
      rw [same]

theorem convertFile_relocates_loadAndJump : ∃ (records : List InputInstr) (homeOf : Page → Page)
    (trace : CvpTrace) (record : InputInstr),
    convertFile (fun _number => 255) (loadAndJump.flatMap CvpTrace.bytes) = some records ∧
      loadAndJump[0]? = some trace ∧ records[0]? = some record ∧
        dataAddress trace record = place (homeOf (pageOf trace.ea)) trace.ea ∧
          pageOf (dataAddress trace record) ∉ (preprocess loadAndJump).code := by
  obtain ⟨records, converted, -⟩ := convertFile_madeOf (fun _number => 255) loadAndJump_lies
    (by decide)
  obtain ⟨homeOf, -, each, -⟩ := convertFile_relocates (fun _number => 255) _ loadAndJump
    loadAndJump_lies (by decide) records converted
  obtain ⟨record, isRecord, address, apart⟩ := each 0 _ rfl rfl
  exact ⟨records, homeOf, _, record, converted, rfl, isRecord, address, apart⟩

end ChampSim.Cvp

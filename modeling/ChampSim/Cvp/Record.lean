/-
The records of a CVP-1 trace, whose length depends on the class of the
instruction and on the registers that it names.
-/

import ChampSim.Library.Outcome
import ChampSim.Library.Reading

set_option autoImplicit false

namespace ChampSim.Cvp

open Reader (Exact)

/-- The last constructor has the numbers that the enumeration does not name. -/
inductive InstClass where
  | aluInstClass
  | loadInstClass
  | storeInstClass
  | condBranchInstClass
  | uncondDirectBranchInstClass
  | uncondIndirectBranchInstClass
  | fpInstClass
  | slowAluInstClass
  | undefInstClass
  | other (code : Byte) (unnamed : 9 ≤ code)
deriving DecidableEq

namespace InstClass

def code : InstClass → Byte
  | aluInstClass => 0
  | loadInstClass => 1
  | storeInstClass => 2
  | condBranchInstClass => 3
  | uncondDirectBranchInstClass => 4
  | uncondIndirectBranchInstClass => 5
  | fpInstClass => 6
  | slowAluInstClass => 7
  | undefInstClass => 8
  | other code _ => code

def ofCode (code : Byte) : InstClass :=
  if unnamed : 9 ≤ code then other code unnamed
  else
    match code.toNat with
    | 0 => aluInstClass
    | 1 => loadInstClass
    | 2 => storeInstClass
    | 3 => condBranchInstClass
    | 4 => uncondDirectBranchInstClass
    | 5 => uncondIndirectBranchInstClass
    | 6 => fpInstClass
    | 7 => slowAluInstClass
    | _ => undefInstClass

theorem ofCode_code (type : InstClass) : ofCode type.code = type := by
  cases type with
  | other code unnamed => exact dif_pos unnamed
  | _ => rfl

theorem code_ofCode (code : Byte) : (ofCode code).code = code := by
  revert code
  decide

def isMemory (type : InstClass) : Bool := type = loadInstClass || type = storeInstClass

def isBranch (type : InstClass) : Bool :=
  type = uncondIndirectBranchInstClass || type = uncondDirectBranchInstClass ||
    type = condBranchInstClass

theorem isMemory_isBranch (type : InstClass) (memory : type.isMemory = true) :
    type.isBranch = false := by
  cases type <;> simp_all [isMemory, isBranch]

end InstClass

/-- `trace`, with the registers that its counts say are there. -/
structure CvpTrace where
  pc : BitVec 64
  type : InstClass
  ea : BitVec 64
  accessSize : Byte
  taken : Byte
  target : BitVec 64
  inputRegNames : List Byte
  outputRegNames : List Byte
  outputRegValues : List (BitVec 64 × BitVec 64)

/-- Why no record was read: the file had ended, or an assertion failed. -/
inductive Stop where
  | endOfFile
  | assertion
deriving DecidableEq, Repr

/-! ### Reading a record -/

def word : Layout (BitVec 64) := Layout.little 8

def octet (failure : Stop) : Reader Stop Byte := .take failure Layout.octet

def readAccess (type : InstClass) : Reader Stop (BitVec 64 × Byte) :=
  if type.isMemory then (Reader.take .assertion word).andThen fun _ea => octet .assertion
  else .give (0, 0)

/-- Only a conditional branch may be not taken, and it goes to the next instruction then. -/
def readTarget (pc : BitVec 64) (type : InstClass) (taken : Byte) : Reader Stop (BitVec 64) :=
  if taken ≠ 0 then .take .assertion word
  else if type = .condBranchInstClass then .give (pc + 4)
  else .refuse .assertion

def readBranch (pc : BitVec 64) (type : InstClass) : Reader Stop (Byte × BitVec 64) :=
  if type.isBranch then (octet .assertion).andThen (readTarget pc type)
  else .give (0, 0)

def readNames : Reader Stop (List Byte) :=
  ((octet .assertion).andThen fun count =>
    .each (fun _index => octet .assertion) (List.range count.toNat)).map Prod.snd

def isScalar (name : Byte) : Bool := name ≤ 31 || name = 64

def isSimd (name : Byte) : Bool := 32 ≤ name && name < 64

def readValue (name : Byte) : Reader Stop (BitVec 64 × BitVec 64) :=
  if isScalar name then (Reader.take .assertion word).map fun value => (value, 0)
  else if isSimd name then (Reader.take .assertion word).andThen fun _low => .take .assertion word
  else .refuse .assertion

namespace CvpTrace

def readBody (pc : BitVec 64) : Reader Stop (InstClass × (BitVec 64 × Byte) × (Byte × BitVec 64) ×
    List Byte × List Byte × List (BitVec 64 × BitVec 64)) :=
  ((octet .assertion).map InstClass.ofCode).andThen fun type =>
    (readAccess type).andThen fun _access =>
      (readBranch pc type).andThen fun _branch =>
        readNames.andThen fun _inputs => readNames.andThen fun outputs => .each readValue outputs

/-- `trace::read`. -/
def read : Reader Stop CvpTrace :=
  ((Reader.take .endOfFile word).andThen readBody).map
    fun (pc, type, (ea, accessSize), (taken, target), inputRegNames, outputRegNames,
        outputRegValues) =>
      { pc, type, ea, accessSize, taken, target, inputRegNames, outputRegNames, outputRegValues }

/-! ### Writing a record -/

def accessBytes (type : InstClass) (access : BitVec 64 × Byte) : List Byte :=
  if type.isMemory then word.bytes access.1 ++ [access.2] else []

def branchBytes (type : InstClass) (branch : Byte × BitVec 64) : List Byte :=
  if type.isBranch then branch.1 :: (if branch.1 ≠ 0 then word.bytes branch.2 else []) else []

def nameBytes (names : List Byte) : List Byte := BitVec.ofNat 8 names.length :: names

def valueBytes (name : Byte) (value : BitVec 64 × BitVec 64) : List Byte :=
  if isScalar name then word.bytes value.1 else word.bytes value.1 ++ word.bytes value.2

def bytes (trace : CvpTrace) : List Byte :=
  word.bytes trace.pc ++ [trace.type.code] ++ accessBytes trace.type (trace.ea, trace.accessSize) ++
    branchBytes trace.type (trace.taken, trace.target) ++ nameBytes trace.inputRegNames ++
      nameBytes trace.outputRegNames ++
        Reader.eachBytes valueBytes trace.outputRegNames trace.outputRegValues

def AccessFits (type : InstClass) (access : BitVec 64 × Byte) : Prop :=
  type.isMemory = false → access = (0, 0)

/-- A branch that is not taken is conditional, and its target is the next instruction. -/
def BranchFits (pc : BitVec 64) (type : InstClass) (branch : Byte × BitVec 64) : Prop :=
  if type.isBranch then branch.1 = 0 → type = .condBranchInstClass ∧ branch.2 = pc + 4
  else branch = (0, 0)

def NamesFit (names : List Byte) : Prop := names.length < 256

def ValueFits (name : Byte) (value : BitVec 64 × BitVec 64) : Prop :=
  isScalar name = true ∧ value.2 = 0 ∨ isScalar name = false ∧ isSimd name = true

structure WellFormed (trace : CvpTrace) : Prop where
  access : AccessFits trace.type (trace.ea, trace.accessSize)
  branch : BranchFits trace.pc trace.type (trace.taken, trace.target)
  inputs : NamesFit trace.inputRegNames
  outputs : NamesFit trace.outputRegNames
  values : List.Forall₂ ValueFits trace.outputRegNames trace.outputRegValues

/-! ### Reading what was written -/

theorem exact_word (failure : Stop) : Exact (.take failure word) word.bytes (fun _value => True) :=
  Reader.exact_take failure word (Layout.little_unread 8)

theorem exact_octet (failure : Stop) :
    Exact (octet failure) (fun value => [value]) (fun _value => True) :=
  Reader.exact_take failure Layout.octet Layout.octet_unread

theorem exact_type : Exact ((octet .assertion).map InstClass.ofCode) (fun type => [type.code])
    (fun _type => True) := by
  apply (exact_octet .assertion).map
  · intro code _any
    refine ⟨trivial, ?_⟩
    rw [InstClass.code_ofCode]
  · intro type _any
    exact ⟨type.code, trivial, type.ofCode_code⟩

theorem exact_readAccess (type : InstClass) :
    Exact (readAccess type) (accessBytes type) (AccessFits type) := by
  unfold readAccess accessBytes AccessFits
  cases memory : type.isMemory with
  | true =>
      simp only [↓reduceIte]
      apply ((exact_word .assertion).andThen (fun _ea _any => exact_octet .assertion)).congr
      · intro access
        simp
      · intro access _any
        rfl
  | false =>
      simp only [Bool.false_eq_true, ↓reduceIte]
      apply (Reader.exact_give _).congr
      · intro access
        simp
      · intro access _none
        rfl

theorem exact_readTarget (pc : BitVec 64) (type : InstClass) (taken : Byte) :
    Exact (readTarget pc type taken) (fun target => if taken ≠ 0 then word.bytes target else [])
      (fun target => taken = 0 → type = .condBranchInstClass ∧ target = pc + 4) := by
  unfold readTarget
  by_cases isTaken : taken = 0
  · by_cases conditional : type = .condBranchInstClass
    · simp only [isTaken, conditional, ne_eq, not_true_eq_false, ↓reduceIte, true_and,
        forall_true_left]
      exact Reader.exact_give (pc + 4)
    · simp only [isTaken, conditional, ne_eq, not_true_eq_false, ↓reduceIte, false_and,
        forall_true_left]
      exact Reader.exact_refuse Stop.assertion
  · simp only [isTaken, ne_eq, not_false_eq_true, ↓reduceIte, false_implies]
    exact exact_word .assertion

theorem exact_readBranch (pc : BitVec 64) (type : InstClass) :
    Exact (readBranch pc type) (branchBytes type) (BranchFits pc type) := by
  unfold readBranch branchBytes BranchFits
  cases branch : type.isBranch with
  | false =>
      simp only [Bool.false_eq_true, ↓reduceIte]
      exact Reader.exact_give _
  | true =>
      simp only [↓reduceIte]
      apply ((exact_octet .assertion).andThen
        (fun taken _any => exact_readTarget pc type taken)).congr
      · intro branch
        simp
      · intro branch _any
        rfl

theorem eachBytes_octets {keys : List Nat} {names : List Byte}
    (each : List.Forall₂ (fun _key _name => True) keys names) :
    Reader.eachBytes (fun _key name => [name]) keys names = names := by
  induction each with
  | nil => rfl
  | cons _any _rest ih => exact congrArg (_ :: ·) ih

theorem exact_readNames : Exact readNames nameBytes NamesFit := by
  apply ((exact_octet .assertion).andThen (fun count _any =>
    Reader.exact_each (fun _index => exact_octet .assertion) (List.range count.toNat))).map
  · rintro ⟨count, names⟩ ⟨-, each⟩
    have length := each.length_eq
    rw [List.length_range] at length
    dsimp only
    refine ⟨?_, ?_⟩
    · unfold NamesFit
      rw [← length]
      exact count.isLt
    · unfold nameBytes
      rw [eachBytes_octets each, ← length, BitVec.ofNat_toNat, BitVec.setWidth_eq]
      rfl
  · intro names fits
    refine ⟨(BitVec.ofNat 8 names.length, names), ⟨trivial, ?_⟩, rfl⟩
    rw [BitVec.toNat_ofNat, Nat.mod_eq_of_lt fits]
    apply List.forall₂_iff_get.mpr
    exact ⟨List.length_range, fun _place _within _inside => trivial⟩

theorem exact_readValue (name : Byte) : Exact (readValue name) (valueBytes name) (ValueFits name) := by
  unfold readValue valueBytes ValueFits
  cases scalar : isScalar name with
  | true =>
      simp only [↓reduceIte]
      apply (exact_word .assertion).map
      · intro value _any
        simp
      · rintro ⟨low, high⟩ fits
        refine ⟨low, trivial, ?_⟩
        have same : high = 0 := by simpa using fits
        rw [same]
  | false =>
      cases simd : isSimd name with
      | true =>
          simp only [Bool.false_eq_true, ↓reduceIte]
          apply ((exact_word .assertion).andThen (fun _low _any => exact_word .assertion)).congr
          · intro value
            simp
          · intro value _any
            rfl
      | false =>
          simp only [Bool.false_eq_true, ↓reduceIte]
          have refused : Exact (Reader.refuse Stop.assertion)
              (fun value : BitVec 64 × BitVec 64 => word.bytes value.1 ++ word.bytes value.2)
              (fun _value => False) :=
            Reader.exact_refuse _
          apply refused.congr
          · intro value
            simp
          · intro value impossible
            exact impossible.elim

theorem exact_read : Exact read bytes WellFormed := by
  apply ((exact_word .endOfFile).andThen fun pc _any => exact_type.andThen fun type _any =>
    (exact_readAccess type).andThen fun _access _fits =>
      (exact_readBranch pc type).andThen fun _branch _follows =>
        exact_readNames.andThen fun _inputs _few => exact_readNames.andThen fun outputs _few =>
          Reader.exact_each exact_readValue outputs).map
  · rintro ⟨pc, type, ⟨ea, accessSize⟩, ⟨taken, target⟩, inputs, outputs, values⟩ fits
    obtain ⟨-, -, access, branch, few, more, each⟩ := fits
    refine ⟨⟨access, branch, few, more, each⟩, ?_⟩
    simp only [bytes, List.append_assoc]
  · intro trace fits
    exact ⟨(trace.pc, trace.type, (trace.ea, trace.accessSize), (trace.taken, trace.target),
      trace.inputRegNames, trace.outputRegNames, trace.outputRegValues),
      ⟨trivial, trivial, fits.access, fits.branch, fits.inputs, fits.outputs, fits.values⟩, rfl⟩

theorem bytes_length (trace : CvpTrace) : 8 < trace.bytes.length := by
  have size : (word.bytes trace.pc).length = 8 := word.sized trace.pc
  unfold bytes
  simp only [List.length_append, List.length_singleton, size]
  omega

def Asserts {Value : Type} (reader : Reader Stop Value) : Prop :=
  Reader.Fails reader (fun failure => failure = .assertion)

theorem asserts_word : Asserts (Reader.take .assertion word) := by
  apply Reader.fails_take
  rfl

theorem asserts_octet : Asserts (octet .assertion) := by
  apply Reader.fails_take
  rfl

theorem asserts_readAccess (type : InstClass) : Asserts (readAccess type) := by
  unfold readAccess
  split
  · exact asserts_word.andThen (fun _ea => asserts_octet)
  · exact Reader.fails_give _

theorem asserts_readTarget (pc : BitVec 64) (type : InstClass) (taken : Byte) :
    Asserts (readTarget pc type taken) := by
  unfold readTarget
  split
  · exact asserts_word
  · split
    · exact Reader.fails_give _
    · exact Reader.fails_refuse rfl

theorem asserts_readBranch (pc : BitVec 64) (type : InstClass) : Asserts (readBranch pc type) := by
  unfold readBranch
  split
  · exact asserts_octet.andThen (asserts_readTarget pc type)
  · exact Reader.fails_give _

theorem asserts_readNames : Asserts readNames :=
  (asserts_octet.andThen fun _count => Reader.fails_each (fun _index => asserts_octet) _).map

theorem asserts_readValue (name : Byte) : Asserts (readValue name) := by
  unfold readValue
  split
  · exact asserts_word.map
  · split
    · exact asserts_word.andThen (fun _low => asserts_word)
    · exact Reader.fails_refuse rfl

theorem asserts_readBody (pc : BitVec 64) : Asserts (readBody pc) :=
  asserts_octet.map.andThen fun type =>
    (asserts_readAccess type).andThen fun _access =>
      (asserts_readBranch pc type).andThen fun _branch =>
        asserts_readNames.andThen fun _inputs =>
          asserts_readNames.andThen fun outputs => Reader.fails_each asserts_readValue outputs

/-- A file ends where fewer than eight bytes are left, and nowhere else. -/
theorem read_endOfFile {file : List Byte} : read file = .error .endOfFile ↔ file.length < 8 := by
  constructor
  · intro failed
    by_contra long
    have counter : (Reader.take Stop.endOfFile word) file =
        .ok (word.ofBytes (file.take 8), file.drop 8) := if_pos (Nat.not_lt.mp long)
    unfold read Reader.map Reader.andThen at failed
    rw [counter] at failed
    change Except.map _ ((readBody _ _).map _) = _ at failed
    cases body : readBody (word.ofBytes (file.take 8)) (file.drop 8) with
    | error failure =>
        rw [body, asserts_readBody _ _ failure body] at failed
        cases failed
    | ok rest =>
        rw [body] at failed
        cases failed
  · intro short
    have ended : (Reader.take Stop.endOfFile word) file = .error .endOfFile :=
      if_neg (Nat.not_le.mpr short)
    unfold read Reader.map Reader.andThen
    rw [ended]
    rfl

/-! ### Reading a file -/

/-- The loop that reads the bytes of an opened trace, for at most so many records. -/
def readRecords : Nat → List Byte → Except Stop (List CvpTrace)
  | 0, _ => .ok []
  | count + 1, file =>
      match read file with
      | .ok (trace, rest) => (readRecords count rest).map (trace :: ·)
      | .error .endOfFile => .ok []
      | .error .assertion => .error .assertion

/-- No record is empty, so there are no more records than bytes. -/
def readFile (file : List Byte) : Except Stop (List CvpTrace) := readRecords file.length file

/-- What lies in a file: records in a row, and too few bytes for one more. -/
def Lies (file : List Byte) (traces : List CvpTrace) : Prop :=
  (∀ trace ∈ traces, trace.WellFormed) ∧
    ∃ left, left.length < 8 ∧ file = traces.flatMap bytes ++ left

theorem lies_nil {file : List Byte} : Lies file [] ↔ file.length < 8 := by
  constructor
  · rintro ⟨-, left, short, same⟩
    rw [same]
    exact short
  · intro short
    exact ⟨fun _trace impossible => (List.not_mem_nil impossible).elim, file, short, rfl⟩

theorem lies_cons {file : List Byte} {trace : CvpTrace} {traces : List CvpTrace} :
    Lies file (trace :: traces) ↔
      ∃ rest, (trace.WellFormed ∧ file = trace.bytes ++ rest) ∧ Lies rest traces := by
  constructor
  · rintro ⟨formed, left, short, same⟩
    rw [List.flatMap_cons, List.append_assoc] at same
    exact ⟨_, ⟨formed trace List.mem_cons_self, same⟩,
      fun other member => formed other (List.mem_cons_of_mem _ member), left, short, rfl⟩
  · rintro ⟨rest, ⟨first, same⟩, formed, left, short, others⟩
    refine ⟨?_, left, short, ?_⟩
    · intro other member
      rcases List.mem_cons.mp member with here | later
      · exact here ▸ first
      · exact formed other later
    · rw [same, others, List.flatMap_cons, List.append_assoc]

theorem read_lies {file rest : List Byte} {trace : CvpTrace} (first : read file = .ok (trace, rest))
    (traces : List CvpTrace) :
    Lies file traces ↔ ∃ others, traces = trace :: others ∧ Lies rest others := by
  constructor
  · intro lies
    cases traces with
    | nil =>
        rw [read_endOfFile.mpr (lies_nil.mp lies)] at first
        cases first
    | cons here others =>
        obtain ⟨left, written, more⟩ := lies_cons.mp lies
        rw [(exact_read file here left).mpr written] at first
        cases first
        exact ⟨others, rfl, more⟩
  · rintro ⟨others, same, lies⟩
    rw [same]
    exact lies_cons.mpr ⟨rest, (exact_read file trace rest).mp first, lies⟩

theorem lies_reads {file : List Byte} {trace : CvpTrace} {others : List CvpTrace}
    (lies : Lies file (trace :: others)) :
    ∃ rest, read file = .ok (trace, rest) ∧ trace.bytes.length ≤ file.length := by
  obtain ⟨rest, ⟨formed, front⟩, -⟩ := lies_cons.mp lies
  refine ⟨rest, (exact_read file trace rest).mpr ⟨formed, front⟩, ?_⟩
  rw [front, List.length_append]
  exact Nat.le_add_right _ _

theorem readRecords_iff (count : Nat) (file : List Byte) (enough : file.length ≤ count)
    (traces : List CvpTrace) : readRecords count file = .ok traces ↔ Lies file traces := by
  induction count generalizing file traces with
  | zero =>
      have empty := List.eq_nil_of_length_eq_zero (Nat.le_zero.mp enough)
      cases traces with
      | nil =>
          rw [lies_nil, empty]
          exact ⟨fun _read => Nat.succ_pos _, fun _short => rfl⟩
      | cons trace traces =>
          constructor
          · intro impossible
            cases impossible
          · intro lies
            obtain ⟨-, -, fits⟩ := lies_reads lies
            have long := trace.bytes_length
            omega
  | succ count ih =>
      unfold readRecords
      cases first : read file with
      | error failure =>
          cases failure with
          | endOfFile =>
              have short := read_endOfFile.mp first
              cases traces with
              | nil => exact ⟨fun _read => lies_nil.mpr short, fun _lies => rfl⟩
              | cons trace others =>
                  constructor
                  · intro impossible
                    cases impossible
                  · intro lies
                    obtain ⟨rest, read, -⟩ := lies_reads lies
                    rw [first] at read
                    cases read
          | assertion =>
              constructor
              · intro impossible
                cases impossible
              · intro lies
                cases traces with
                | nil =>
                    rw [read_endOfFile.mpr (lies_nil.mp lies)] at first
                    cases first
                | cons trace others =>
                    obtain ⟨rest, read, -⟩ := lies_reads lies
                    rw [first] at read
                    cases read
      | ok taken =>
          obtain ⟨trace, rest⟩ := taken
          obtain ⟨-, front⟩ := (exact_read file trace rest).mp first
          have total := congrArg List.length front
          have long := trace.bytes_length
          rw [List.length_append] at total
          rw [read_lies first]
          constructor
          · intro read
            obtain ⟨others, later, same⟩ := Outcome.map_ok read
            exact ⟨others, same.symm, (ih rest (by omega) others).mp later⟩
          · rintro ⟨others, same, lies⟩
            dsimp only
            rw [(ih rest (by omega) others).mpr lies, same]
            rfl

theorem readRecords_failed (count : Nat) (file : List Byte) (failure : Stop)
    (failed : readRecords count file = .error failure) : failure = .assertion := by
  induction count generalizing file with
  | zero => cases failed
  | succ count ih =>
      unfold readRecords at failed
      cases first : read file with
      | ok taken =>
          rw [first] at failed
          dsimp only at failed
          cases later : readRecords count taken.2 with
          | ok others =>
              rw [later] at failed
              cases failed
          | error other =>
              rw [later] at failed
              cases failed
              exact ih taken.2 later
      | error stop =>
          rw [first] at failed
          cases stop with
          | endOfFile => cases failed
          | assertion =>
              cases failed
              rfl

/-- The bytes of a trace are read as some records exactly when they are what the format writes of
well-formed records, with fewer than eight bytes after them. On any others an assertion fails. -/
theorem readFile_iff (file : List Byte) :
    (∀ traces, readFile file = .ok traces ↔ Lies file traces) ∧
      ((∀ traces, ¬Lies file traces) ↔ readFile file = .error .assertion) := by
  have reads := readRecords_iff file.length file (Nat.le_refl _)
  refine ⟨reads, ?_, ?_⟩
  · intro none
    cases result : readFile file with
    | ok traces => exact absurd ((reads traces).mp result) (none traces)
    | error failure => rw [readRecords_failed _ _ _ result]
  · intro failed traces lies
    have read : readFile file = .ok traces := (reads traces).mpr lies
    rw [failed] at read
    cases read

end CvpTrace

end ChampSim.Cvp

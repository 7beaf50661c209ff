/-
What a reader yields while it is called as long as the file has not ended:
the instructions of the trace in order, each taken branch with the address of
the instruction after it, whenever the trace is not empty and no taken branch
ends it at the end of a chunk.
-/

import ChampSim.Trace.Reader

set_option autoImplicit false

namespace ChampSim.Trace

open ChampSim.Core (TraceInstr)
open Transition (Machine)

variable {Record : Type} {format : TraceFormat Record}

namespace BulkTracereader

def chunk : Nat := bufferSize - refreshThresh

/-- Calls made as long as `eof` is false, and what they yielded. -/
def reads (format : TraceFormat Record) : Machine (List TraceInstr × BulkTracereader) Unit where
  step state _ :=
    if state.2.eof = true then none
    else (state.2.call format).map (fun called => (state.1 ++ [called.1], called.2))

theorem reads_step_iff {state next : List TraceInstr × BulkTracereader} :
    (reads format).step state () = some next ↔
      state.2.eof = false ∧ ∃ retval, state.2.call format = some (retval, next.2) ∧
        next.1 = state.1 ++ [retval] := by
  unfold reads
  dsimp only
  by_cases ended : state.2.eof = true
  · rw [if_pos ended, ended]
    constructor
    · intro impossible
      cases impossible
    · intro impossible
      cases impossible.1
  · rw [if_neg ended, Bool.not_eq_true _ |>.mp ended, Option.map_eq_some_iff]
    constructor
    · rintro ⟨⟨retval, reader⟩, called, same⟩
      cases same
      exact ⟨rfl, retval, called, rfl⟩
    · rintro ⟨-, retval, called, same⟩
      exact ⟨(retval, next.2), called, by rw [← same]⟩

/-! ### One read from the file -/

/-- The file when this many of the records have been read. -/
def Loaded (format : TraceFormat Record) (records : List Record) (loaded : Nat)
    (file : TraceFile) : Prop :=
  file.remaining = format.encode (records.drop loaded)

theorem refresh_loaded {reader : BulkTracereader} {records : List Record} {loaded : Nat}
    (left : Loaded format records loaded reader.traceFile) :
    Loaded format records (loaded + chunk) (reader.refresh format).traceFile ∧
      ((reader.refresh format).traceFile.eof = true ↔ records.length < loaded + chunk) ∧
      (reader.refresh format).instrBuffer = setBranchTargets (reader.instrBuffer ++
        ((records.drop loaded).take chunk).map (format.inflate reader.cpu)) := by
  have positive := format.positive
  have taken : reader.traceFile.remaining.take (chunk * format.size) =
      format.encode ((records.drop loaded).take chunk) := by
    rw [left, format.encode_take]
  have rest : reader.traceFile.remaining.drop (chunk * format.size) =
      format.encode (records.drop (loaded + chunk)) := by
    rw [left, format.encode_drop, List.drop_drop]
  have counted : (reader.traceFile.remaining.take (chunk * format.size)).length =
      ((records.drop loaded).take chunk).length * format.size := by
    rw [taken, format.encode_length]
  have decoded : format.decode ((reader.traceFile.remaining.take (chunk * format.size)).length /
      format.size) (reader.traceFile.remaining.take (chunk * format.size)) =
        (records.drop loaded).take chunk := by
    rw [counted, Nat.mul_div_cancel _ positive, taken]
    have read := format.decode_encode ((records.drop loaded).take chunk) []
    rw [List.append_nil] at read
    exact read
  have ended : (reader.refresh format).traceFile.eof =
      decide ((reader.traceFile.remaining.take (chunk * format.size)).length <
        chunk * format.size) := rfl
  have filled : (reader.refresh format).instrBuffer = setBranchTargets (reader.instrBuffer ++
      (format.decode ((reader.traceFile.remaining.take (chunk * format.size)).length /
        format.size) (reader.traceFile.remaining.take (chunk * format.size))).map
        (format.inflate reader.cpu)) := rfl
  refine ⟨rest, ?_, ?_⟩
  · rw [ended, counted, decide_eq_true_iff, List.length_take, List.length_drop,
      Nat.mul_lt_mul_right positive]
    have some : 0 < chunk := by decide
    omega
  · rw [filled, decoded]

/-! ### The invariant of the reads -/

/-- The instructions of the trace, each taken branch with its target. -/
def targeted (format : TraceFormat Record) (cpu : Byte) (records : List Record) :
    List TraceInstr :=
  setBranchTargets (records.map (format.inflate cpu))

def YieldsLast (records : List Record) : Prop := records.length = 1 ∨ chunk ∣ records.length

instance (records : List Record) : Decidable (YieldsLast records) :=
  inferInstanceAs (Decidable (_ ∨ _))

structure Reached (format : TraceFormat Record) (cpu : Byte) (records : List Record) (loaded : Nat)
    (state : List TraceInstr × BulkTracereader) : Prop where
  onCpu : state.2.cpu = cpu
  given : state.1 = (targeted format cpu records).take state.1.length
  within : state.1.length ≤ records.length
  file : Loaded format records loaded state.2.traceFile
  chunks : chunk ∣ loaded
  ended : state.2.traceFile.eof = true ↔ records.length < loaded
  buffered : state.2.instrBuffer = setBranchTargets
    (((records.map (format.inflate cpu)).take loaded).drop state.1.length)
  ahead : state.1.length < loaded ∨ loaded = 0 ∧ state.1.length = 0
  ends : YieldsLast records → records.length < loaded → state.1.length = records.length
  heldBack : state.1.length = records.length → YieldsLast records

/-- The buffer has the instruction to yield and, unless the file has ended, the one after it. -/
structure Filled (format : TraceFormat Record) (cpu : Byte) (records : List Record)
    (loaded yielded : Nat) (filled : BulkTracereader) : Prop where
  onCpu : filled.cpu = cpu
  file : Loaded format records loaded filled.traceFile
  chunks : chunk ∣ loaded
  ended : filled.traceFile.eof = true ↔ records.length < loaded
  buffered : filled.instrBuffer = setBranchTargets
    (((records.map (format.inflate cpu)).take loaded).drop yielded)
  ahead : yielded + 1 < loaded
  ends : YieldsLast records → records.length < loaded → yielded + 1 = records.length ∨
    yielded = records.length
  heldBack : yielded + 1 = records.length → YieldsLast records

variable {cpu : Byte} {records : List Record} {loaded : Nat}
  {state : List TraceInstr × BulkTracereader}

theorem Reached.buffer_length (reached : Reached format cpu records loaded state) :
    state.2.instrBuffer.length = min loaded records.length - state.1.length := by
  rw [reached.buffered, setBranchTargets_length, List.length_drop, List.length_take,
    List.length_map]

/-- A call first reads the next chunk when no more than one instruction is left. -/
theorem Reached.filled (reached : Reached format cpu records loaded state)
    (runs : state.2.eof = false) :
    ∃ later, Filled format cpu records later state.1.length
      (if state.2.instrBuffer.length ≤ refreshThresh then state.2.refresh format else state.2) := by
  have length := reached.buffer_length
  have ahead := reached.ahead
  have within := reached.within
  have size : chunk = 127 := rfl
  by_cases short : state.2.instrBuffer.length ≤ refreshThresh
  · rw [if_pos short]
    change state.2.instrBuffer.length ≤ 1 at short
    have goes : ¬state.2.traceFile.eof = true := by
      intro atEnd
      unfold BulkTracereader.eof at runs
      rw [atEnd, decide_eq_true (show state.2.instrBuffer.length ≤ refreshThresh from short)] at runs
      cases runs
    have more : loaded ≤ records.length := Nat.not_lt.mp (fun past => goes (reached.ended.mpr past))
    obtain ⟨file, ended, buffered⟩ := refresh_loaded reached.file
    have kept : state.2.instrBuffer =
        ((records.map (format.inflate cpu)).take loaded).drop state.1.length := by
      rw [reached.buffered]
      apply setBranchTargets_short
      rw [reached.buffered, setBranchTargets_length] at short
      exact short
    refine ⟨loaded + chunk, reached.onCpu, file, Nat.dvd_add reached.chunks (Nat.dvd_refl _), ended,
      ?_, ?_, ?_, ?_⟩
    · have inside : state.1.length ≤ ((records.map (format.inflate cpu)).take loaded).length := by
        rw [List.length_take, List.length_map]
        omega
      rw [buffered, kept, reached.onCpu, List.map_take, List.map_drop, List.take_add,
        List.drop_append_of_le_length inside]
    · omega
    · intro last past
      have chunks := reached.chunks
      rcases last with single | whole
      · rw [size] at chunks
        omega
      · rw [size] at chunks whole
        omega
    · intro last
      have chunks := reached.chunks
      rcases ahead with before | ⟨unread, unyielded⟩
      · have exact : records.length = loaded := by omega
        exact Or.inr (by rw [exact]; exact chunks)
      · exact Or.inl (by omega)
  · rw [if_neg short]
    change ¬state.2.instrBuffer.length ≤ 1 at short
    refine ⟨loaded, reached.onCpu, reached.file, reached.chunks, reached.ended, reached.buffered,
      ?_, ?_, ?_⟩
    · omega
    · intro last past
      exact Or.inr (reached.ends last past)
    · intro last
      omega

/-- The front of a filled buffer is the next instruction of the trace. -/
theorem Filled.front {yielded : Nat} {filled : BulkTracereader}
    (holds : Filled format cpu records loaded yielded filled) :
    filled.instrBuffer[0]? = (targeted format cpu records)[yielded]? := by
  have ahead := holds.ahead
  have here : yielded < loaded := by omega
  rw [holds.buffered, targeted, setBranchTargets_getElem?, setBranchTargets_getElem?,
    List.getElem?_drop, List.getElem?_drop, List.getElem?_take, List.getElem?_take,
    if_pos (show yielded + 0 < loaded from here), if_pos ahead]
  rfl

theorem Filled.pop {yielded : List TraceInstr} {retval : TraceInstr} {rest : List TraceInstr}
    {filled : BulkTracereader}
    (holds : Filled format cpu records loaded yielded.length filled)
    (given : yielded = (targeted format cpu records).take yielded.length)
    (front : filled.instrBuffer = retval :: rest) :
    Reached format cpu records loaded
      (yielded ++ [retval], { filled with instrBuffer := rest }) := by
  have first := holds.front
  rw [front, List.getElem?_cons_zero] at first
  have inside : yielded.length < records.length := by
    obtain ⟨bound, -⟩ := List.getElem?_eq_some_iff.mp first.symm
    rw [targeted, setBranchTargets_length, List.length_map] at bound
    exact bound
  have length : (yielded ++ [retval]).length = yielded.length + 1 := List.length_append
  have ahead := holds.ahead
  refine ⟨holds.onCpu, ?_, ?_, holds.file, holds.chunks, holds.ended, ?_, ?_, ?_, ?_⟩
  · dsimp only
    rw [length, List.take_add_one, ← first, ← given]
    rfl
  · dsimp only
    omega
  · dsimp only
    have buffered := holds.buffered
    rw [front] at buffered
    have dropped : ((records.map (format.inflate cpu)).take loaded).drop (yielded.length + 1) =
        (((records.map (format.inflate cpu)).take loaded).drop yielded.length).tail := by
      rw [List.tail_drop]
    rw [length, dropped]
    cases remaining : ((records.map (format.inflate cpu)).take loaded).drop yielded.length with
    | nil =>
        rw [remaining] at buffered
        cases buffered
    | cons instr others =>
        rw [remaining] at buffered
        have tails := congrArg List.tail buffered
        rw [setBranchTargets_tail] at tails
        exact tails
  · dsimp only
    omega
  · dsimp only
    intro last past
    have exact := holds.ends last past
    omega
  · dsimp only
    rw [length]
    exact holds.heldBack

/-- As long as the file has not ended and a record is left, a call yields an instruction. -/
theorem Reached.call (reached : Reached format cpu records loaded state)
    (runs : state.2.eof = false) (left : state.1.length < records.length) :
    ∃ next, (reads format).step state () = some next := by
  obtain ⟨later, filled⟩ := reached.filled runs
  have front := filled.front
  have inside : state.1.length < (targeted format cpu records).length := by
    rw [targeted, setBranchTargets_length, List.length_map]
    exact left
  rw [List.getElem?_eq_getElem inside] at front
  unfold reads
  dsimp only
  rw [runs, if_neg Bool.false_ne_true]
  unfold BulkTracereader.call
  dsimp only
  split
  · next empty =>
      rw [empty] at front
      cases front
  · exact ⟨_, rfl⟩

theorem Reached.step {next : List TraceInstr × BulkTracereader}
    (reached : Reached format cpu records loaded state)
    (stepped : (reads format).step state () = some next) :
    ∃ later, Reached format cpu records later next := by
  obtain ⟨runs, retval, called, same⟩ := reads_step_iff.mp stepped
  obtain ⟨later, filled⟩ := reached.filled runs
  unfold BulkTracereader.call at called
  dsimp only at called
  split at called
  · cases called
  · next front =>
      obtain ⟨yields, after⟩ := Prod.mk.inj (Option.some.inj called)
      have popped := filled.pop reached.given front
      rw [yields, ← same, after] at popped
      exact ⟨later, popped⟩

/-- While the file has not ended, every record but those of an empty trace is still to come. -/
theorem Reached.more (reached : Reached format cpu records loaded state)
    (runs : state.2.eof = false) (filled : records ≠ []) : state.1.length < records.length := by
  rcases Nat.lt_or_eq_of_le reached.within with left | all
  · exact left
  · exfalso
    have some := List.length_pos_iff.mpr filled
    have ahead := reached.ahead
    have atEnd : state.2.traceFile.eof = true := reached.ended.mpr (by omega)
    have empty := reached.buffer_length
    unfold BulkTracereader.eof at runs
    rw [atEnd, decide_eq_true (show state.2.instrBuffer.length ≤ refreshThresh by omega)] at runs
    cases runs

theorem reached_start : Reached format cpu records 0 ([], start format cpu records) := by
  refine ⟨rfl, rfl, Nat.zero_le _, rfl, Nat.dvd_zero _, ?_, ?_, Or.inr ⟨rfl, rfl⟩, ?_, ?_⟩
  · constructor
    · intro impossible
      cases impossible
    · intro impossible
      exact absurd impossible (Nat.not_lt_zero _)
  · rfl
  · intro _ impossible
    exact absurd impossible (Nat.not_lt_zero _)
  · intro none
    rw [List.length_nil] at none
    exact Or.inr (by rw [← none]; exact Nat.dvd_zero _)

theorem reads_reached {calls : List Unit} {finish : List TraceInstr × BulkTracereader}
    (ran : (reads format).run ([], start format cpu records) calls = some finish) :
    ∃ loaded, Reached format cpu records loaded finish := by
  refine (reads format).run_invariant (fun state => ∃ loaded, Reached format cpu records loaded state)
    ?_ calls _ _ ⟨0, reached_start⟩ ran
  rintro state ⟨⟩ next ⟨loaded, reached⟩ stepped
  exact reached.step stepped

/-- Unless the last record is held back, there are calls that yield every record. -/
theorem exists_reads_all (format : TraceFormat Record) (cpu : Byte) (last : YieldsLast records)
    (count : Nat) (inside : count ≤ records.length) :
    ∃ calls finish, (reads format).run ([], start format cpu records) calls = some finish ∧
      finish.1.length = count := by
  induction count with
  | zero => exact ⟨[], _, rfl, rfl⟩
  | succ count ih =>
      obtain ⟨calls, middle, ran, yielded⟩ := ih (by omega)
      obtain ⟨loaded, reached⟩ := reads_reached ran
      have runs : middle.2.eof = false := by
        apply Bool.not_eq_true _ |>.mp
        intro atEnd
        have ended := reached.ended.mp (Bool.and_eq_true_iff.mp atEnd).1
        have all := reached.ends last ended
        omega
      obtain ⟨finish, stepped⟩ := reached.call runs (by omega)
      obtain ⟨-, retval, -, same⟩ := reads_step_iff.mp stepped
      refine ⟨calls ++ [()], finish, ?_, ?_⟩
      · rw [Machine.run_append, ran, Option.bind_some, Machine.run_cons, stepped]
        rfl
      · rw [same, List.length_append, yielded]
        rfl

/-! ### What the reads give -/

def takenBranch (instr : TraceInstr) : Bool := instr.isBranch && instr.branchTaken

/-- A call never takes the front of an empty buffer, the instructions are those
of the first records of the trace, and a taken branch goes to the next one. -/
structure ReadsBack (format : TraceFormat Record) (cpu : Byte) (records : List Record)
    (state : List TraceInstr × BulkTracereader) : Prop where
  callable : state.2.eof = false → ∃ called, state.2.call format = some called
  inOrder : state.1.map (fun instr => { instr with branchTarget := 0 }) <+:
    records.map (format.inflate cpu)
  targets : ∀ place instr, state.1[place]? = some instr →
    if takenBranch instr then
      ∃ next, records[place + 1]? = some next ∧ instr.branchTarget = (format.inflate cpu next).ip
    else instr.branchTarget = 0

/-- There is a record, and a trace that ends with a taken branch has its last record held back. -/
def Readable (format : TraceFormat Record) (cpu : Byte) (records : List Record) : Prop :=
  records ≠ [] ∧ ∀ last, records.getLast? = some last →
    takenBranch (format.inflate cpu last) = true → ¬YieldsLast records

theorem targeted_untargeted :
    (targeted format cpu records).map (fun instr => { instr with branchTarget := 0 }) =
      records.map (format.inflate cpu) := by
  apply List.ext_getElem?
  intro place
  rw [targeted, List.getElem?_map, setBranchTargets_getElem?, List.getElem?_map,
    List.getElem?_map, Option.map_map, Option.map_map]
  cases records[place]? with
  | none => rfl
  | some record =>
      have plain := format.untargeted cpu record
      apply congrArg some
      dsimp only [Function.comp_apply]
      cases (records[place + 1]?).map (format.inflate cpu) with
      | none =>
          rw [Option.elim_none, ← plain]
      | some next =>
          rw [Option.elim_some, ← plain]
          rfl

theorem targeted_target {place : Nat} {instr : TraceInstr}
    (found : (targeted format cpu records)[place]? = some instr) :
    ∃ record, records[place]? = some record ∧
      takenBranch instr = takenBranch (format.inflate cpu record) ∧
      instr.branchTarget = if takenBranch instr then
        (records[place + 1]?).elim 0 (fun next => (format.inflate cpu next).ip) else 0 := by
  rw [targeted, setBranchTargets_getElem?, List.getElem?_map, List.getElem?_map] at found
  obtain ⟨inflated, here, same⟩ := Option.map_eq_some_iff.mp found
  obtain ⟨record, present, inflates⟩ := Option.map_eq_some_iff.mp here
  subst inflates
  subst same
  refine ⟨record, present, ?_⟩
  cases records[place + 1]? with
  | none =>
      refine ⟨rfl, ?_⟩
      change (format.inflate cpu record).branchTarget = _
      rw [format.untargeted, Option.elim_none, ite_self]
  | some next => exact ⟨rfl, rfl⟩

theorem Reached.targeted (reached : Reached format cpu records loaded state) {place : Nat}
    {instr : TraceInstr} (found : state.1[place]? = some instr) :
    place < state.1.length ∧ (targeted format cpu records)[place]? = some instr := by
  rw [reached.given, List.getElem?_take] at found
  by_cases inside : place < state.1.length
  · rw [if_pos inside] at found
    exact ⟨inside, found⟩
  · rw [if_neg inside] at found
    cases found

theorem Reached.readsBack (reached : Reached format cpu records loaded state)
    (readable : Readable format cpu records) : ReadsBack format cpu records state := by
  obtain ⟨filled, heldBack⟩ := readable
  constructor
  · intro runs
    obtain ⟨next, stepped⟩ := reached.call runs (reached.more runs filled)
    obtain ⟨-, retval, called, -⟩ := reads_step_iff.mp stepped
    exact ⟨_, called⟩
  · rw [reached.given, List.map_take, targeted_untargeted]
    exact List.take_prefix _ _
  · intro place instr found
    obtain ⟨inside, isTargeted⟩ := reached.targeted found
    obtain ⟨record, present, same, target⟩ := targeted_target isTargeted
    by_cases taken : takenBranch instr = true
    · rw [if_pos taken] at target ⊢
      cases follows : records[place + 1]? with
      | some next =>
          rw [follows] at target
          exact ⟨next, rfl, target⟩
      | none =>
          exfalso
          have past := List.getElem?_eq_none_iff.mp follows
          have within := reached.within
          have final : place = records.length - 1 := by omega
          rw [final, ← List.getLast?_eq_getElem?] at present
          exact heldBack record present (same ▸ taken) (reached.heldBack (by omega))
    · rw [if_neg taken] at target ⊢
      exact target

/-- A taken branch that ends the trace gets no target when it is yielded. -/
theorem yieldsLast_misses {last : Record} (yields : YieldsLast records)
    (ends : records.getLast? = some last) (taken : takenBranch (format.inflate cpu last) = true) :
    ∃ calls finish, (reads format).run ([], start format cpu records) calls = some finish ∧
      ¬ReadsBack format cpu records finish := by
  have filled : 0 < records.length := by
    apply List.length_pos_iff.mpr
    intro empty
    rw [empty] at ends
    cases ends
  obtain ⟨calls, finish, ran, length⟩ :=
    exists_reads_all format cpu yields records.length (Nat.le_refl _)
  refine ⟨calls, finish, ran, ?_⟩
  intro readsBack
  obtain ⟨loaded, reached⟩ := reads_reached ran
  have given := reached.given
  have whole : (targeted format cpu records).length = records.length := by
    rw [targeted, setBranchTargets_length, List.length_map]
  rw [length, ← whole, List.take_length] at given
  have inside : records.length - 1 < (targeted format cpu records).length := by omega
  have found := List.getElem?_eq_getElem inside
  obtain ⟨record, present, same, -⟩ := targeted_target found
  rw [← List.getLast?_eq_getElem?, ends] at present
  cases present
  have target := readsBack.targets (records.length - 1) _ (by rw [given, found])
  rw [same, taken, if_pos rfl] at target
  obtain ⟨next, past, -⟩ := target
  rw [Nat.sub_add_cancel filled, List.getElem?_eq_none (Nat.le_refl _)] at past
  cases past

theorem reads_back_iff (format : TraceFormat Record) (cpu : Byte) (records : List Record) :
    (∀ calls finish, (reads format).run ([], start format cpu records) calls = some finish →
      ReadsBack format cpu records finish) ↔ Readable format cpu records := by
  constructor
  · intro all
    constructor
    · intro empty
      obtain ⟨⟨retval, reader⟩, called⟩ := (all [] _ rfl).callable rfl
      have stepped : (reads format).step ([], start format cpu records) () =
          some ([retval], reader) := reads_step_iff.mpr ⟨rfl, retval, called, rfl⟩
      obtain ⟨loaded, reached⟩ := reached_start.step stepped
      have within := reached.within
      rw [empty] at within
      exact Nat.not_succ_le_zero 0 within
    · intro last ends taken yields
      obtain ⟨calls, finish, ran, fails⟩ := yieldsLast_misses yields ends taken
      exact fails (all calls finish ran)
  · intro readable calls finish ran
    obtain ⟨loaded, reached⟩ := reads_reached ran
    exact reached.readsBack readable

/-- The reader of an empty file has not seen its end before the first call. -/
theorem empty_not_readsBack :
    ¬∀ calls finish, (reads inputInstr).run ([], start inputInstr 0 []) calls = some finish →
      ReadsBack inputInstr 0 [] finish := by
  intro all
  obtain ⟨called, impossible⟩ := (all [] _ rfl).callable rfl
  cases impossible

end BulkTracereader

end ChampSim.Trace

/-
A reader that opens its trace again when the trace has ended.

Each round over the trace yields the same instructions, so the reader never
ends and never fails. A round leaves out the last record of the trace unless
the reader below yields it.
-/

import ChampSim.Trace.ReaderRuns

set_option autoImplicit false

namespace ChampSim.Trace

open ChampSim.Core (TraceInstr)
open Transition (Machine)
open BulkTracereader (YieldsLast Reached targeted)

/-- `champsim::repeatable` of a `bulk_tracereader`. The file of `args_` holds these records. -/
structure Repeatable (Record : Type) where
  cpu : Byte
  records : List Record
  intern : BulkTracereader

namespace Repeatable

variable {Record : Type} (format : TraceFormat Record)

def start (cpu : Byte) (records : List Record) : Repeatable Record where
  cpu
  records
  intern := .start format cpu records

def eof (_reader : Repeatable Record) : Bool := false

def call (reader : Repeatable Record) : Option (TraceInstr × Repeatable Record) :=
  let intern :=
    if reader.intern.eof then .start format reader.cpu reader.records else reader.intern
  (intern.call format).map (fun called => (called.1, { reader with intern := called.2 }))

def repeats : Machine (List TraceInstr × Repeatable Record) Unit where
  step state _ :=
    (state.2.call format).map (fun called => (state.1 ++ [called.1], called.2))

/-- How many instructions one round over the trace yields. -/
def perRound (records : List Record) : Nat :=
  if YieldsLast records then records.length else records.length - 1

theorem perRound_pos {records : List Record} (filled : records ≠ []) : 0 < perRound records := by
  have some := List.length_pos_iff.mpr filled
  unfold perRound
  by_cases last : YieldsLast records
  · rw [if_pos last]
    exact some
  · rw [if_neg last]
    have single : records.length ≠ 1 := fun alone => last (Or.inl alone)
    omega

variable {format} {cpu : Byte} {records : List Record}

theorem eof_iff {part : List TraceInstr} {intern : BulkTracereader} {loaded : Nat}
    (reached : Reached format cpu records loaded (part, intern)) (filled : records ≠ []) :
    intern.eof = true ↔ part.length = perRound records := by
  have length := reached.buffer_length
  have within := reached.within
  have ahead := reached.ahead
  have ended := reached.ended
  have ends := reached.ends
  have heldBack := reached.heldBack
  have some := List.length_pos_iff.mpr filled
  dsimp only at length within ahead ended ends heldBack
  have unloaded : ¬YieldsLast records → loaded ≠ records.length := by
    intro held same
    exact held (Or.inr (same ▸ reached.chunks))
  have single : ¬YieldsLast records → records.length ≠ 1 := fun held alone => held (Or.inl alone)
  unfold BulkTracereader.eof perRound BulkTracereader.refreshThresh
  rw [Bool.and_eq_true_iff, decide_eq_true_iff, ended]
  by_cases last : YieldsLast records
  · rw [if_pos last]
    constructor
    · rintro ⟨past, -⟩
      exact ends last past
    · intro all
      omega
  · rw [if_neg last]
    have here := unloaded last
    have alone := single last
    have held : part.length ≠ records.length := fun all => last (heldBack all)
    constructor
    · rintro ⟨past, short⟩
      omega
    · intro all
      omega

/-! ### The rounds -/

/-- A reader that has yielded so many instructions, over all rounds. -/
structure Turned (format : TraceFormat Record) (cpu : Byte) (records : List Record) (count : Nat)
    (reader : Repeatable Record) : Prop where
  onCpu : reader.cpu = cpu
  file : reader.records = records
  round : ∃ part loaded, Reached format cpu records loaded (part, reader.intern) ∧
    part.length ≤ perRound records ∧ part.length % perRound records = count % perRound records

theorem start_turned : Turned format cpu records 0 (start format cpu records) :=
  ⟨rfl, rfl, [], 0, BulkTracereader.reached_start, Nat.zero_le _, rfl⟩

/-- The reader below that a call asks: the next instruction of the round is there. -/
theorem Turned.opened {count : Nat} {reader : Repeatable Record}
    (turned : Turned format cpu records count reader) (filled : records ≠ []) :
    ∃ part loaded,
      Reached format cpu records loaded (part, if reader.intern.eof then
        .start format reader.cpu reader.records else reader.intern) ∧
      part.length = count % perRound records := by
  obtain ⟨part, loaded, reached, within, same⟩ := turned.round
  have positive := perRound_pos filled
  have ends := eof_iff reached filled
  by_cases ended : reader.intern.eof = true
  · rw [if_pos ended, turned.onCpu, turned.file]
    refine ⟨[], 0, BulkTracereader.reached_start, ?_⟩
    rw [← same, ends.mp ended, Nat.mod_self]
    rfl
  · rw [if_neg ended]
    refine ⟨part, loaded, reached, ?_⟩
    have short : part.length ≠ perRound records := fun all => ended (ends.mpr all)
    rw [← same, Nat.mod_eq_of_lt (by omega)]

theorem Turned.call {count : Nat} {reader : Repeatable Record}
    (turned : Turned format cpu records count reader) (filled : records ≠ []) :
    ∃ retval next, reader.call format = some (retval, next) ∧
      (targeted format cpu records)[count % perRound records]? = some retval ∧
        Turned format cpu records (count + 1) next := by
  obtain ⟨part, loaded, reached, place⟩ := turned.opened filled
  have ends := eof_iff reached filled
  have before : part.length < perRound records := by
    rw [place]
    exact Nat.mod_lt _ (perRound_pos filled)
  have runs := Bool.not_eq_true _ |>.mp (fun ended => Nat.ne_of_lt before (ends.mp ended))
  obtain ⟨state, stepped⟩ := reached.call runs (reached.more runs filled)
  obtain ⟨-, retval, called, same⟩ := BulkTracereader.reads_step_iff.mp stepped
  obtain ⟨later, reachedNext⟩ := reached.step stepped
  have grown : state.1.length = part.length + 1 := by
    rw [same, List.length_append]
    rfl
  refine ⟨retval, { reader with intern := state.2 }, ?_, ?_, turned.onCpu, turned.file, state.1, later,
    reachedNext, ?_, ?_⟩
  · unfold Repeatable.call
    dsimp only
    rw [called]
    rfl
  · have latest : state.1[part.length]? = some retval := by
      rw [same, List.getElem?_append_right (Nat.le_refl _), Nat.sub_self]
      rfl
    rw [← place]
    exact (reachedNext.targeted latest).2
  · omega
  · rw [grown, Nat.add_mod, place, Nat.mod_mod, ← Nat.add_mod]

/-- However often it is called, a reader that repeats a trace that is not empty
yields one more instruction, and these are those of one round over the trace,
again and again. -/
theorem repeats_rounds (format : TraceFormat Record) (cpu : Byte) (records : List Record)
    (filled : records ≠ []) (calls : List Unit) :
    ∃ finish, (repeats format).run ([], start format cpu records) calls = some finish ∧
      finish.1.length = calls.length ∧ ∀ place < calls.length,
        finish.1[place]? = (targeted format cpu records)[place % perRound records]? := by
  suffices turning : ∃ finish,
      (repeats format).run ([], start format cpu records) calls = some finish ∧
        Turned format cpu records calls.length finish.2 ∧ finish.1.length = calls.length ∧
          ∀ place < calls.length,
            finish.1[place]? = (targeted format cpu records)[place % perRound records]? by
    obtain ⟨finish, ran, -, rounds⟩ := turning
    exact ⟨finish, ran, rounds⟩
  induction calls using List.reverseRecOn with
  | nil =>
      refine ⟨_, rfl, start_turned, rfl, ?_⟩
      intro place impossible
      cases impossible
  | append_singleton calls call ih =>
      obtain ⟨middle, ran, turned, length, rounds⟩ := ih
      obtain ⟨retval, next, called, yields, further⟩ := turned.call filled
      have size : (calls ++ [call]).length = calls.length + 1 := List.length_append
      refine ⟨(middle.1 ++ [retval], next), ?_, ?_, ?_, ?_⟩
      · rw [Machine.run_concat]
        refine ⟨middle, ran, ?_⟩
        change (middle.2.call format).map _ = _
        rw [called]
        rfl
      · rw [size]
        exact further
      · rw [List.length_append, List.length_append, length]
        rfl
      · intro place within
        rw [size] at within
        rcases Nat.lt_or_eq_of_le (Nat.le_of_lt_succ within) with earlier | latest
        · rw [List.getElem?_append_left (by rw [length]; exact earlier)]
          exact rounds place earlier
        · rw [latest, ← length, List.getElem?_concat_length, length]
          exact yields.symm

def plainRecord (ip : BitVec 64) : InputInstr where
  ip
  isBranch := 0
  branchTaken := 0
  destinationRegisters := .replicate _ 0
  sourceRegisters := .replicate _ 0
  destinationMemory := .replicate _ 0
  sourceMemory := .replicate _ 0

theorem repeats_rounds_three : ∃ finish,
    (repeats inputInstr).run ([], start inputInstr 0 [plainRecord 0, plainRecord 4, plainRecord 8])
        (List.replicate 5 ()) = some finish ∧
      finish.1[4]? = (targeted inputInstr 0 [plainRecord 0, plainRecord 4, plainRecord 8])[0]? := by
  obtain ⟨finish, ran, -, rounds⟩ := repeats_rounds inputInstr 0
    [plainRecord 0, plainRecord 4, plainRecord 8] (by simp) (List.replicate 5 ())
  exact ⟨finish, ran, rounds 4 (by decide)⟩

end Repeatable

end ChampSim.Trace

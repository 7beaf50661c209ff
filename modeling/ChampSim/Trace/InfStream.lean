/-
The stream buffer that inflates a compressed trace: `underflow` calls the
decompression library until it has new characters, and refills the input from
the file when the library has consumed it.

The library is a parameter. What is asked of it is that it consumes input it was
given, produces no more than there is room for, and reports an end or an error
when it does neither.
-/

import ChampSim.Library.Loops
import Mathlib.Data.List.Basic
import Mathlib.Data.Nat.Find

set_option autoImplicit false

namespace ChampSim.Trace.InfStream

/-- `status_t`. -/
inductive Status where
  | canContinue
  | atEnd
  | error
deriving DecidableEq, Repr

/-- What a library function returns: its success, the end of the stream, or any other value. -/
inductive Return where
  | ok
  | streamEnd
  | failure
deriving DecidableEq, Repr

inductive Tag where
  | bzip2
  | gzip
  | lzma
deriving DecidableEq, Repr

/-- `Tag::inflate`, given what the library function returned. -/
def Tag.inflate (tag : Tag) (ret : Return) : Status :=
  match tag with
  | .bzip2 => .canContinue
  | .gzip => .canContinue
  | .lzma =>
      match ret with
      | .ok => .canContinue
      | .streamEnd => .atEnd
      | .failure => .error

def chunk : Nat := 1 <<< 16

structure Inflated (Stream : Type) where
  strm : Stream
  consumed : Nat
  produced : List UInt8
  ret : Return

/-- A decompression library, with what it does on an input and room for an output. -/
structure Decompressor (Stream : Type) where
  call : Stream → List UInt8 → Nat → Inflated Stream
  consumed_le : ∀ strm input room, (call strm input room).consumed ≤ input.length
  produced_le : ∀ strm input room, (call strm input room).produced.length ≤ room
  idle_reports : ∀ strm input room, input ≠ [] → 0 < room →
    (call strm input room).consumed = 0 → (call strm input room).produced = [] →
    (call strm input room).ret ≠ .ok

/-- A file stream: a read that gets less than it asks for fails. -/
structure Source where
  remaining : List UInt8
  failed : Bool := false
deriving DecidableEq, Repr

def Source.read (source : Source) (count : Nat) : List UInt8 × Source :=
  (source.remaining.take count,
    { remaining := source.remaining.drop count
      failed := decide (source.remaining.length < count) })

/-- A stream buffer between two calls: the state of the library and the input that is left of
the last chunk. -/
structure Streambuf (Stream : Type) where
  strm : Stream
  input : List UInt8
  src : Source

inductive Underflow where
  | characters (out : List UInt8)
  | endOfFile
  | assertion
deriving DecidableEq, Repr

variable {Stream : Type}

def fetch (buffer : Streambuf Stream) : Streambuf Stream :=
  { buffer with
    input := (buffer.src.read chunk).1
    src := (buffer.src.read chunk).2 }

/-- The check that there is input, on the right where it ends the call. -/
def refill (buffer : Streambuf Stream) : Streambuf Stream ⊕ Streambuf Stream :=
  if buffer.input = [] then
    if buffer.src.failed then .inr buffer
    else if (fetch buffer).input = [] then .inr (fetch buffer)
    else .inl (fetch buffer)
  else .inl buffer

def inflated (library : Decompressor Stream) (buffer : Streambuf Stream) : Inflated Stream :=
  library.call buffer.strm buffer.input chunk

def afterCall (library : Decompressor Stream) (buffer : Streambuf Stream) : Streambuf Stream :=
  { buffer with
    strm := (inflated library buffer).strm
    input := buffer.input.drop (inflated library buffer).consumed }

/-- The body of the loop. It goes on while the whole of the output buffer is still available. -/
def pass (tag : Tag) (library : Decompressor Stream) (buffer : Streambuf Stream) :
    Streambuf Stream ⊕ (Underflow × Streambuf Stream) :=
  match refill buffer with
  | .inr stopped => .inr (.endOfFile, stopped)
  | .inl ready =>
      if tag.inflate (inflated library ready).ret = .error then
        .inr (.assertion, afterCall library ready)
      else if (inflated library ready).produced = [] then .inl (afterCall library ready)
      else .inr (.characters (inflated library ready).produced, afterCall library ready)

/-- `underflow`, when it takes at most so many passes of its loop. -/
def underflow (tag : Tag) (library : Decompressor Stream) (passes : Nat)
    (buffer : Streambuf Stream) : Option (Underflow × Streambuf Stream) :=
  Loops.run (pass tag library) passes buffer

/-- The call returns new characters or the end of the file. -/
def Delivers (result : Underflow × Streambuf Stream) : Prop :=
  result.1 = .endOfFile ∨ ∃ out, out ≠ [] ∧ result.1 = .characters out

def Returns (tag : Tag) (library : Decompressor Stream) (buffer : Streambuf Stream) : Prop :=
  ∃ passes result, underflow tag library passes buffer = some result ∧ Delivers result

/-! ### Libraries that stop -/

def again (library : Decompressor Stream) (input : List UInt8) : Nat → Stream → Stream
  | 0, strm => strm
  | calls + 1, strm => again library input calls (library.call strm input chunk).strm

/-- From now on every call reports an end or an error, and does nothing else. -/
def Stopped (library : Decompressor Stream) (strm : Stream) (input : List UInt8) : Prop :=
  ∀ calls, (library.call (again library input calls strm) input chunk).consumed = 0 ∧
    (library.call (again library input calls strm) input chunk).produced = [] ∧
    (library.call (again library input calls strm) input chunk).ret ≠ .ok

/-- Before there is output, the library stops although it has input, or fails in a way that the
tag makes known. -/
inductive Stalls (tag : Tag) (library : Decompressor Stream) : Streambuf Stream → Prop where
  | stopped {buffer ready : Streambuf Stream} (filled : refill buffer = .inl ready)
      (stops : Stopped library ready.strm ready.input) : Stalls tag library buffer
  | fails {buffer ready : Streambuf Stream} (filled : refill buffer = .inl ready)
      (failure : tag.inflate (inflated library ready).ret = .error) : Stalls tag library buffer
  | later {buffer ready : Streambuf Stream} (filled : refill buffer = .inl ready)
      (silent : (inflated library ready).produced = [])
      (next : Stalls tag library (afterCall library ready)) : Stalls tag library buffer

variable {tag : Tag} {library : Decompressor Stream} {buffer ready : Streambuf Stream}

theorem pass_fails (filled : refill buffer = .inl ready)
    (failure : tag.inflate (inflated library ready).ret = .error) :
    pass tag library buffer = .inr (.assertion, afterCall library ready) := by
  unfold pass
  rw [filled]
  exact if_pos failure

theorem pass_silent (filled : refill buffer = .inl ready)
    (sound : ¬ tag.inflate (inflated library ready).ret = .error)
    (silent : (inflated library ready).produced = []) :
    pass tag library buffer = .inl (afterCall library ready) := by
  unfold pass
  rw [filled]
  exact (if_neg sound).trans (if_pos silent)

theorem pass_produces (filled : refill buffer = .inl ready)
    (sound : ¬ tag.inflate (inflated library ready).ret = .error)
    (loud : (inflated library ready).produced ≠ []) :
    pass tag library buffer =
      .inr (.characters (inflated library ready).produced, afterCall library ready) := by
  unfold pass
  rw [filled]
  exact (if_neg sound).trans (if_neg loud)

theorem refill_of_input (some : buffer.input ≠ []) : refill buffer = .inl buffer := if_neg some

def bytesLeft (buffer : Streambuf Stream) : Nat := buffer.input.length + buffer.src.remaining.length

theorem fetch_bytesLeft (empty : buffer.input = []) : bytesLeft (fetch buffer) = bytesLeft buffer := by
  unfold bytesLeft
  change (buffer.src.remaining.take chunk).length + (buffer.src.remaining.drop chunk).length = _
  rw [empty, List.length_take, List.length_drop, List.length_nil]
  omega

theorem refill_filled (filled : refill buffer = .inl ready) :
    ready.input ≠ [] ∧ bytesLeft ready = bytesLeft buffer := by
  unfold refill at filled
  split at filled
  · rename_i empty
    split at filled
    · cases filled
    · split at filled
      · cases filled
      · rename_i got
        cases filled
        exact ⟨got, fetch_bytesLeft empty⟩
  · rename_i some
    cases filled
    exact ⟨some, rfl⟩

theorem afterCall_input (idle : (inflated library ready).consumed = 0) :
    (afterCall library ready).input = ready.input := by
  change ready.input.drop _ = ready.input
  rw [idle, List.drop_zero]

theorem afterCall_bytesLeft (library : Decompressor Stream) (ready : Streambuf Stream) :
    bytesLeft (afterCall library ready) + (inflated library ready).consumed = bytesLeft ready := by
  have within : (inflated library ready).consumed ≤ ready.input.length :=
    library.consumed_le ready.strm ready.input chunk
  change (ready.input.drop _).length + ready.src.remaining.length + _ =
    ready.input.length + ready.src.remaining.length
  rw [List.length_drop]
  omega

theorem not_delivers_assertion (buffer : Streambuf Stream) :
    ¬ Delivers (Underflow.assertion, buffer) := by
  rintro (isEnd | ⟨out, _new, isOut⟩)
  · cases isEnd
  · cases isOut

/-- A library that has stopped keeps the loop going, unless the tag ends it with the assertion. -/
theorem not_returns_of_stopped (filled : refill buffer = .inl ready)
    (stops : Stopped library ready.strm ready.input) : ¬ Returns tag library buffer := by
  have closed : ∀ buffer, (∃ ready, refill buffer = .inl ready ∧
      Stopped library ready.strm ready.input) →
      (∃ next, pass tag library buffer = .inl next ∧
        ∃ ready, refill next = .inl ready ∧ Stopped library ready.strm ready.input) ∨
      ∃ result, pass tag library buffer = .inr result ∧ ¬ Delivers result := by
    rintro buffer ⟨ready, filled, stops⟩
    obtain ⟨idle, silent, _reports⟩ := stops 0
    by_cases failure : tag.inflate (inflated library ready).ret = .error
    · exact Or.inr ⟨_, pass_fails filled failure, not_delivers_assertion _⟩
    · left
      have kept : (afterCall library ready).input = ready.input := afterCall_input idle
      have stillFilled : refill (afterCall library ready) = .inl (afterCall library ready) :=
        refill_of_input (kept ▸ (refill_filled filled).1)
      refine ⟨_, pass_silent filled failure silent, _, stillFilled, ?_⟩
      rw [kept]
      exact fun calls => stops (calls + 1)
  exact Loops.not_ends_of_closed closed buffer ⟨ready, filled, stops⟩

theorem not_returns_of_stalls (stalls : Stalls tag library buffer) :
    ¬ Returns tag library buffer := by
  induction stalls with
  | stopped filled stops => exact not_returns_of_stopped filled stops
  | fails filled failure =>
      intro returns
      exact not_delivers_assertion _ ((Loops.ends_done (pass_fails filled failure)).mp returns)
  | @later buffer ready filled silent _next ih =>
      intro returns
      by_cases failure : tag.inflate (inflated library ready).ret = .error
      · exact not_delivers_assertion _ ((Loops.ends_done (pass_fails filled failure)).mp returns)
      · exact ih ((Loops.ends_next (pass_silent filled failure silent)).mp returns)

theorem pass_sound (filled : refill buffer = .inl ready) (sound : ¬ Stalls tag library buffer) :
    Returns tag library buffer ∨
      ((inflated library ready).produced = [] ∧
        pass tag library buffer = .inl (afterCall library ready) ∧
        ¬ Stalls tag library (afterCall library ready)) := by
  have noFailure : ¬ tag.inflate (inflated library ready).ret = .error :=
    fun failure => sound (.fails filled failure)
  by_cases silent : (inflated library ready).produced = []
  · exact Or.inr ⟨silent, pass_silent filled noFailure silent,
      fun next => sound (.later filled silent next)⟩
  · exact Or.inl ((Loops.ends_done (pass_produces filled noFailure silent)).mpr
      (Or.inr ⟨_, silent, rfl⟩))

/-- A library that moves within some calls delivers, if one with fewer bytes left does. -/
theorem returns_of_moves (fewer : ∀ other : Streambuf Stream, bytesLeft other < bytesLeft buffer →
      ¬ Stalls tag library other → Returns tag library other)
    (filled : refill buffer = .inl ready) (sound : ¬ Stalls tag library buffer) (calls : Nat)
    (moves : ¬ ((library.call (again library ready.input calls ready.strm) ready.input chunk).consumed
        = 0 ∧
      (library.call (again library ready.input calls ready.strm) ready.input chunk).produced = [] ∧
      (library.call (again library ready.input calls ready.strm) ready.input chunk).ret ≠ .ok)) :
    Returns tag library buffer := by
  induction calls generalizing buffer ready with
  | zero =>
      rcases pass_sound filled sound with returns | ⟨silent, goesOn, nextSound⟩
      · exact returns
      · have consumes : (inflated library ready).consumed ≠ 0 := by
          intro idle
          exact moves ⟨idle, silent, library.idle_reports ready.strm ready.input chunk
            (refill_filled filled).1 (by decide) idle silent⟩
        apply (Loops.ends_next goesOn).mpr
        apply fewer _ _ nextSound
        have bytes := afterCall_bytesLeft library ready
        have same := (refill_filled filled).2
        omega
  | succ calls ih =>
      rcases pass_sound filled sound with returns | ⟨silent, goesOn, nextSound⟩
      · exact returns
      · apply (Loops.ends_next goesOn).mpr
        have bytes := afterCall_bytesLeft library ready
        have same := (refill_filled filled).2
        by_cases idle : (inflated library ready).consumed = 0
        · have kept : (afterCall library ready).input = ready.input := afterCall_input idle
          have stillFilled : refill (afterCall library ready) = .inl (afterCall library ready) :=
            refill_of_input (kept ▸ (refill_filled filled).1)
          apply ih _ stillFilled nextSound
          · rw [kept]
            exact moves
          · intro other less
            exact fewer other (by omega)
        · exact fewer _ (by omega) nextSound

theorem returns_of_not_stalls (sound : ¬ Stalls tag library buffer) : Returns tag library buffer := by
  induction left : bytesLeft buffer using Nat.strong_induction_on generalizing buffer with
  | _ bytes fewer =>
      cases filled : refill buffer with
      | inr ended =>
          have stops : pass tag library buffer = .inr (.endOfFile, ended) := by
            unfold pass
            rw [filled]
          exact (Loops.ends_done stops).mpr (Or.inl rfl)
      | inl ready =>
          have progress : ¬ Stopped library ready.strm ready.input :=
            fun stops => sound (.stopped filled stops)
          obtain ⟨calls, moves⟩ := not_forall.mp progress
          apply returns_of_moves _ filled sound calls moves
          intro other less otherSound
          exact fewer (bytesLeft other) (left ▸ less) otherSound rfl

/-- A call returns new characters or the end of the file exactly if the library does not stop
before it has output, or fails in a way that the tag makes known. -/
theorem underflow_returns_iff (tag : Tag) (library : Decompressor Stream)
    (buffer : Streambuf Stream) : Returns tag library buffer ↔ ¬ Stalls tag library buffer :=
  ⟨fun returns stalls => not_returns_of_stalls stalls returns, returns_of_not_stalls⟩

/-! ### A file that is not compressed -/

/-- How far `inflate` is in the header of a `gzip` stream: at its two magic bytes, after them, or
in the state of an error, which it never leaves. -/
inductive Header where
  | magic (first : Option UInt8)
  | after
  | bad
deriving DecidableEq, Repr

def Header.second (first second : UInt8) (consumed : Nat) : Inflated Header :=
  if first = 0x1f ∧ second = 0x8b then
    { strm := .after, consumed := consumed, produced := [], ret := .ok }
  else { strm := .bad, consumed := consumed, produced := [], ret := .failure }

/-- The header as far as its magic bytes. What comes after them is consumed unread. -/
def Header.call : Header → List UInt8 → Inflated Header
  | .bad, _ => { strm := .bad, consumed := 0, produced := [], ret := .failure }
  | .after, input =>
      { strm := .after
        consumed := input.length
        produced := []
        ret := if input = [] then .failure else .ok }
  | .magic first, [] => { strm := .magic first, consumed := 0, produced := [], ret := .failure }
  | .magic (some first), second :: _ => Header.second first second 1
  | .magic none, [first] =>
      { strm := .magic (some first), consumed := 1, produced := [], ret := .ok }
  | .magic none, first :: second :: _ => Header.second first second 2

theorem Header.second_moves (first second : UInt8) (consumed : Nat) :
    (Header.second first second consumed).consumed = consumed ∧
      (Header.second first second consumed).produced = [] := by
  unfold Header.second
  split
  · exact ⟨rfl, rfl⟩
  · exact ⟨rfl, rfl⟩

theorem Header.call_produced (header : Header) (input : List UInt8) :
    (header.call input).produced = [] := by
  rcases header with (_ | first) | _ | _
  · rcases input with _ | ⟨first, _ | ⟨second, rest⟩⟩
    · rfl
    · rfl
    · exact (Header.second_moves first second 2).2
  · rcases input with _ | ⟨second, rest⟩
    · rfl
    · exact (Header.second_moves first second 1).2
  · rfl
  · rfl

theorem Header.call_consumed (header : Header) (input : List UInt8) :
    (header.call input).consumed ≤ input.length ∧
      (input ≠ [] → (header.call input).consumed = 0 → (header.call input).ret ≠ .ok) := by
  rcases header with (_ | first) | _ | _
  · rcases input with _ | ⟨first, _ | ⟨second, rest⟩⟩
    · exact ⟨Nat.le_refl 0, fun some => absurd rfl some⟩
    · exact ⟨Nat.le_refl 1, fun _some idle => absurd idle Nat.one_ne_zero⟩
    · have moves : (Header.call (.magic none) (first :: second :: rest)).consumed = 2 :=
        (Header.second_moves first second 2).1
      rw [moves, List.length_cons, List.length_cons]
      exact ⟨by omega, fun _some idle => absurd idle (by decide)⟩
  · rcases input with _ | ⟨second, rest⟩
    · exact ⟨Nat.le_refl 0, fun some => absurd rfl some⟩
    · have moves : (Header.call (.magic (some first)) (second :: rest)).consumed = 1 :=
        (Header.second_moves first second 1).1
      rw [moves, List.length_cons]
      exact ⟨by omega, fun _some idle => absurd idle Nat.one_ne_zero⟩
  · exact ⟨Nat.le_refl _, fun some idle => absurd (List.length_eq_zero_iff.mp idle) some⟩
  · exact ⟨Nat.zero_le _, fun _some _idle failure => by cases failure⟩

def gzipHeader : Decompressor Header where
  call := fun header input _room => header.call input
  consumed_le := fun header input _room => (header.call_consumed input).1
  produced_le := by
    intro header input room
    rw [Header.call_produced]
    exact Nat.zero_le room
  idle_reports := fun header input _room some _roomy idle _silent =>
    (header.call_consumed input).2 some idle

theorem gzipHeader_again (input : List UInt8) (calls : Nat) :
    again gzipHeader input calls Header.bad = Header.bad := by
  induction calls with
  | zero => rfl
  | succ calls ih => exact ih

theorem gzipHeader_stopped (input : List UInt8) : Stopped gzipHeader Header.bad input := by
  intro calls
  rw [gzipHeader_again]
  refine ⟨rfl, rfl, ?_⟩
  intro failure
  cases failure

/-- A file that is not a `gzip` stream, the text `ABCD`, is never read to its end. -/
theorem underflow_notGzip :
    ¬ Returns .gzip gzipHeader
      { strm := .magic none, input := [], src := { remaining := [0x41, 0x42, 0x43, 0x44] } } := by
  have filled : refill
        { strm := Header.magic none, input := []
          src := { remaining := [0x41, 0x42, 0x43, 0x44] } } =
      .inl
        { strm := .magic none, input := [0x41, 0x42, 0x43, 0x44]
          src := { remaining := [], failed := true } } := rfl
  apply not_returns_of_stalls
  apply Stalls.later filled rfl
  exact Stalls.stopped (refill_of_input (by decide)) (gzipHeader_stopped _)

end ChampSim.Trace.InfStream

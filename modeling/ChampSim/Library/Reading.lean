/-
Readers that take a value from the front of a file, and when such a reader is
exact: it accepts what can be written of a value, and nothing else.
-/

import ChampSim.Library.Layout

set_option autoImplicit false

namespace ChampSim

theorem Layout.little_unread (count : Nat) (raw : List Byte) (sized : raw.length = count) :
    (Layout.little count).bytes ((Layout.little count).ofBytes raw) = raw := by
  have fits : BitFields.Fits (List.replicate count 8) (raw.map BitVec.toNat) := by
    apply List.forall₂_iff_get.mpr
    refine ⟨by rw [List.length_replicate, List.length_map, sized], ?_⟩
    intro place within _inside
    simp only [List.get_eq_getElem, List.getElem_replicate, List.getElem_map]
    exact BitVec.isLt _
  have small := BitFields.join_lt fits
  rw [List.sum_replicate_nat, Nat.mul_comm] at small
  change (BitFields.split (List.replicate count 8) (BitVec.ofNat (8 * count)
    (BitFields.join (List.replicate count 8) (raw.map BitVec.toNat))).toNat).map _ = raw
  rw [BitVec.toNat_ofNat, Nat.mod_eq_of_lt small, BitFields.split_join fits, List.map_map]
  apply (List.map_congr_left _).trans (List.map_id raw)
  intro byte _member
  exact BitVec.ofNat_toNat 8 byte |>.trans (BitVec.setWidth_eq byte)

def Layout.octet : Layout Byte where
  size := 1
  bytes value := [value]
  ofBytes raw := raw.headD 0
  sized _value := rfl
  returns _value := rfl

theorem Layout.octet_unread (raw : List Byte) (sized : raw.length = Layout.octet.size) :
    Layout.octet.bytes (Layout.octet.ofBytes raw) = raw := by
  obtain ⟨byte, same⟩ := List.length_eq_one_iff.mp sized
  rw [same]
  rfl

abbrev Reader (Error Value : Type) : Type := List Byte → Except Error (Value × List Byte)

namespace Reader

variable {Error Value Other Key : Type}

def give (value : Value) : Reader Error Value := fun file => .ok (value, file)

def refuse (failure : Error) : Reader Error Value := fun _file => .error failure

/-- A value of a fixed size, or a failure where the file is too short. -/
def take (failure : Error) (layout : Layout Value) : Reader Error Value := fun file =>
  if layout.size ≤ file.length then
    .ok (layout.ofBytes (file.take layout.size), file.drop layout.size)
  else .error failure

def andThen (first : Reader Error Value) (second : Value → Reader Error Other) :
    Reader Error (Value × Other) := fun file =>
  (first file).bind fun read =>
    (second read.1 read.2).map fun more => ((read.1, more.1), more.2)

def map (change : Value → Other) (reader : Reader Error Value) : Reader Error Other := fun file =>
  (reader file).map fun read => (change read.1, read.2)

def each (reader : Key → Reader Error Value) : List Key → Reader Error (List Value)
  | [] => give []
  | key :: keys =>
      map (fun values => values.1 :: values.2) (andThen (reader key) fun _value => each reader keys)

/-- The reader accepts exactly what is written of the values that can be written. -/
def Exact (reader : Reader Error Value) (bytes : Value → List Byte) (Written : Value → Prop) :
    Prop :=
  ∀ file value rest, reader file = .ok (value, rest) ↔ Written value ∧ file = bytes value ++ rest

variable {reader : Reader Error Value} {bytes : Value → List Byte} {Written : Value → Prop}

theorem exact_give (value : Value) :
    Exact (give value : Reader Error Value) (fun _value => []) (fun given => given = value) := by
  intro file given rest
  constructor
  · intro read
    cases read
    exact ⟨rfl, rfl⟩
  · rintro ⟨same, front⟩
    rw [same, front]
    rfl

theorem exact_refuse (failure : Error) :
    Exact (refuse failure : Reader Error Value) bytes (fun _value => False) := by
  intro file value rest
  constructor
  · intro read
    cases read
  · rintro ⟨impossible, -⟩
    exact impossible.elim

theorem exact_take (failure : Error) (layout : Layout Value)
    (unread : ∀ raw, raw.length = layout.size → layout.bytes (layout.ofBytes raw) = raw) :
    Exact (take failure layout) layout.bytes (fun _value => True) := by
  intro file value rest
  unfold take
  constructor
  · intro read
    split at read
    · rename_i long
      cases read
      refine ⟨trivial, ?_⟩
      rw [unread _ (List.length_take_of_le long), List.take_append_drop]
    · cases read
  · rintro ⟨-, front⟩
    have size := layout.sized value
    rw [front, ← size, List.length_append, if_pos (Nat.le_add_right _ _), List.take_left,
      List.drop_left, layout.returns]

theorem Exact.andThen {second : Value → Reader Error Other} {more : Value → Other → List Byte}
    {Follows : Value → Other → Prop} (exact : Exact reader bytes Written)
    (next : ∀ value, Written value → Exact (second value) (more value) (Follows value)) :
    Exact (reader.andThen second) (fun values => bytes values.1 ++ more values.1 values.2)
      (fun values => Written values.1 ∧ Follows values.1 values.2) := by
  rintro file ⟨value, other⟩ rest
  unfold Reader.andThen
  constructor
  · intro read
    cases first : reader file with
    | error failure =>
        rw [first] at read
        cases read
    | ok taken =>
        rw [first] at read
        obtain ⟨written, front⟩ := (exact file taken.1 taken.2).mp first
        change (second taken.1 taken.2).map _ = _ at read
        cases later : second taken.1 taken.2 with
        | error failure =>
            rw [later] at read
            cases read
        | ok last =>
            rw [later] at read
            cases read
            obtain ⟨follows, middle⟩ := (next taken.1 written taken.2 last.1 last.2).mp later
            refine ⟨⟨written, follows⟩, ?_⟩
            rw [front, middle, List.append_assoc]
  · rintro ⟨⟨written, follows⟩, front⟩
    have first := (exact file value (more value other ++ rest)).mpr
      ⟨written, front.trans (List.append_assoc _ _ _)⟩
    have later := (next value written _ other rest).mpr ⟨follows, rfl⟩
    rw [first]
    change (second value _).map _ = _
    rw [later]
    rfl

theorem Exact.map {change : Value → Other} {others : Other → List Byte} {Allowed : Other → Prop}
    (exact : Exact reader bytes Written)
    (allowed : ∀ value, Written value → Allowed (change value) ∧ others (change value) = bytes value)
    (every : ∀ other, Allowed other → ∃ value, Written value ∧ change value = other) :
    Exact (reader.map change) others Allowed := by
  intro file other rest
  unfold Reader.map
  constructor
  · intro read
    cases taken : reader file with
    | error failure =>
        rw [taken] at read
        cases read
    | ok value =>
        rw [taken] at read
        cases read
        obtain ⟨written, front⟩ := (exact file value.1 value.2).mp taken
        obtain ⟨fits, same⟩ := allowed value.1 written
        exact ⟨fits, by rw [same]; exact front⟩
  · rintro ⟨fits, front⟩
    obtain ⟨value, written, same⟩ := every other fits
    subst same
    rw [(allowed value written).2] at front
    rw [(exact file value rest).mpr ⟨written, front⟩]
    rfl

theorem Exact.congr {others : Value → List Byte} {Allowed : Value → Prop}
    (exact : Exact reader bytes Written) (same : ∀ value, Written value ↔ Allowed value)
    (equal : ∀ value, Written value → others value = bytes value) :
    Exact reader others Allowed := by
  intro file value rest
  rw [exact file value rest, ← same value]
  apply and_congr_right
  intro written
  rw [equal value written]

def eachBytes (bytes : Key → Value → List Byte) (keys : List Key) (values : List Value) :
    List Byte :=
  (List.zipWith bytes keys values).flatten

theorem exact_each {readers : Key → Reader Error Value} {written : Key → Value → List Byte}
    {Fits : Key → Value → Prop} (exact : ∀ key, Exact (readers key) (written key) (Fits key))
    (keys : List Key) :
    Exact (each readers keys) (eachBytes written keys) (List.Forall₂ Fits keys) := by
  induction keys with
  | nil =>
      intro file values rest
      rw [List.forall₂_nil_left_iff]
      change give [] file = _ ↔ values = [] ∧ file = [] ++ rest
      exact exact_give [] file values rest
  | cons key keys ih =>
      apply ((exact key).andThen (fun _value _fits => ih)).map
      · intro values fits
        exact ⟨.cons fits.1 fits.2, List.flatten_cons⟩
      · intro values fits
        cases fits with
        | cons here others => exact ⟨(_, _), ⟨here, others⟩, rfl⟩

/-! ### How readers fail -/

def Fails (reader : Reader Error Value) (Allowed : Error → Prop) : Prop :=
  ∀ file failure, reader file = .error failure → Allowed failure

variable {Allowed : Error → Prop}

theorem fails_give (value : Value) : Fails (give value : Reader Error Value) Allowed := by
  intro file failure failed
  cases failed

theorem fails_refuse {failure : Error} (allowed : Allowed failure) :
    Fails (refuse failure : Reader Error Value) Allowed := by
  intro file other failed
  cases failed
  exact allowed

theorem fails_take {failure : Error} (allowed : Allowed failure) (layout : Layout Value) :
    Fails (take failure layout) Allowed := by
  intro file other failed
  unfold take at failed
  split at failed
  · cases failed
  · cases failed
    exact allowed

theorem Fails.andThen {second : Value → Reader Error Other} (first : Fails reader Allowed)
    (next : ∀ value, Fails (second value) Allowed) : Fails (reader.andThen second) Allowed := by
  intro file failure failed
  unfold Reader.andThen at failed
  cases taken : reader file with
  | error other =>
      rw [taken] at failed
      cases failed
      exact first file failure taken
  | ok value =>
      rw [taken] at failed
      change (second value.1 value.2).map _ = _ at failed
      cases later : second value.1 value.2 with
      | error other =>
          rw [later] at failed
          cases failed
          exact next value.1 value.2 failure later
      | ok last =>
          rw [later] at failed
          cases failed

theorem Fails.map {change : Value → Other} (fails : Fails reader Allowed) :
    Fails (reader.map change) Allowed := by
  intro file failure failed
  unfold Reader.map at failed
  cases taken : reader file with
  | error other =>
      rw [taken] at failed
      cases failed
      exact fails file failure taken
  | ok value =>
      rw [taken] at failed
      cases failed

theorem fails_each {readers : Key → Reader Error Value}
    (fails : ∀ key, Fails (readers key) Allowed) (keys : List Key) :
    Fails (each readers keys) Allowed := by
  induction keys with
  | nil => exact fails_give []
  | cons key keys ih => exact ((fails key).andThen (fun _value => ih)).map

end Reader

end ChampSim

/-
How values lie in memory: a fixed number of bytes for each value, from which
the value can be read back, and arrays of such values one after another.
-/

import ChampSim.Library.BitFields

set_option autoImplicit false

namespace ChampSim

abbrev Byte := BitVec 8

/-- The object representation of a trivially copyable type. -/
structure Layout (Value : Type) where
  size : Nat
  bytes : Value → List Byte
  ofBytes : List Byte → Value
  sized : ∀ value, (bytes value).length = size
  returns : ∀ value, ofBytes (bytes value) = value

namespace Layout

variable {Value Other : Type}

/-! ### Values in a row -/

def encode (layout : Layout Value) (values : List Value) : List Byte := values.flatMap layout.bytes

def decode (layout : Layout Value) : Nat → List Byte → List Value
  | 0, _ => []
  | count + 1, raw =>
      layout.ofBytes (raw.take layout.size) :: layout.decode count (raw.drop layout.size)

@[simp] theorem encode_cons (layout : Layout Value) (value : Value) (values : List Value) :
    layout.encode (value :: values) = layout.bytes value ++ layout.encode values := rfl

theorem encode_length (layout : Layout Value) (values : List Value) :
    (layout.encode values).length = values.length * layout.size := by
  induction values with
  | nil => simp [encode]
  | cons value values ih =>
      rw [encode_cons, List.length_append, layout.sized, ih, List.length_cons, Nat.succ_mul]
      omega

theorem encode_take (layout : Layout Value) (values : List Value) (count : Nat) :
    (layout.encode values).take (count * layout.size) = layout.encode (values.take count) := by
  induction values generalizing count with
  | nil => simp [encode]
  | cons value values ih =>
      cases count with
      | zero => simp [encode]
      | succ count =>
          have fits : (count + 1) * layout.size =
              (layout.bytes value).length + count * layout.size := by
            rw [layout.sized, Nat.succ_mul, Nat.add_comm]
          rw [List.take_succ_cons, encode_cons, encode_cons, fits, List.take_length_add_append, ih]

theorem encode_drop (layout : Layout Value) (values : List Value) (count : Nat) :
    (layout.encode values).drop (count * layout.size) = layout.encode (values.drop count) := by
  induction values generalizing count with
  | nil => simp [encode]
  | cons value values ih =>
      cases count with
      | zero => simp
      | succ count =>
          have fits : (count + 1) * layout.size =
              (layout.bytes value).length + count * layout.size := by
            rw [layout.sized, Nat.succ_mul, Nat.add_comm]
          rw [List.drop_succ_cons, encode_cons, fits, List.drop_length_add_append, ih]

theorem decode_length (layout : Layout Value) (count : Nat) (raw : List Byte) :
    (layout.decode count raw).length = count := by
  induction count generalizing raw with
  | zero => rfl
  | succ count ih => exact congrArg (· + 1) (ih _)

theorem decode_encode (layout : Layout Value) (values : List Value) (rest : List Byte) :
    layout.decode values.length (layout.encode values ++ rest) = values := by
  induction values with
  | nil => rfl
  | cons value values ih =>
      have own : (layout.encode (value :: values) ++ rest).take layout.size = layout.bytes value := by
        rw [encode_cons, List.append_assoc, ← layout.sized value, List.take_left]
      have others : (layout.encode (value :: values) ++ rest).drop layout.size =
          layout.encode values ++ rest := by
        rw [encode_cons, List.append_assoc, ← layout.sized value, List.drop_left]
      rw [List.length_cons, decode, own, others, layout.returns, ih]

/-! ### Layouts of types -/

def little (count : Nat) : Layout (BitVec (8 * count)) where
  size := count
  bytes value := (BitFields.split (List.replicate count 8) value.toNat).map (BitVec.ofNat 8)
  ofBytes raw := BitVec.ofNat _ (BitFields.join (List.replicate count 8) (raw.map BitVec.toNat))
  sized value := by
    have fits := BitFields.split_fits (List.replicate count 8) value.toNat
    rw [List.length_map, ← fits.length_eq, List.length_replicate]
  returns value := by
    have fits := BitFields.split_fits (List.replicate count 8) value.toNat
    have same : ((BitFields.split (List.replicate count 8) value.toNat).map (BitVec.ofNat 8)).map
        BitVec.toNat = BitFields.split (List.replicate count 8) value.toNat := by
      rw [List.map_map]
      apply List.map_congr_left _ |>.trans (List.map_id _)
      intro field member
      obtain ⟨place, inside, found⟩ := List.mem_iff_getElem.mp member
      have small := fits.get (i := place) (by rw [fits.length_eq]; exact inside) inside
      simp only [List.get_eq_getElem, List.getElem_replicate, found] at small
      exact Nat.mod_eq_of_lt small
    have bits : (List.replicate count 8).sum = 8 * count := by
      rw [List.sum_replicate_nat, Nat.mul_comm]
    have whole : value.toNat < 2 ^ (List.replicate count 8).sum := by
      rw [bits]
      exact value.isLt
    rw [same, BitFields.join_split _ _ whole, BitVec.ofNat_toNat, BitVec.setWidth_eq]

def pair (first : Layout Value) (second : Layout Other) : Layout (Value × Other) where
  size := first.size + second.size
  bytes values := first.bytes values.1 ++ second.bytes values.2
  ofBytes raw := (first.ofBytes (raw.take first.size), second.ofBytes (raw.drop first.size))
  sized values := by rw [List.length_append, first.sized, second.sized]
  returns values := by
    rw [← first.sized values.1, List.take_left, List.drop_left, first.returns, second.returns]

def array (layout : Layout Value) (count : Nat) : Layout (Vector Value count) where
  size := count * layout.size
  bytes values := layout.encode values.toList
  ofBytes raw := ⟨(layout.decode count raw).toArray, layout.decode_length count raw⟩
  sized values := by rw [layout.encode_length, Vector.length_toList]
  returns values := by
    have read := layout.decode_encode values.toList []
    rw [Vector.length_toList, List.append_nil] at read
    apply Vector.toList_inj.mp
    exact read

def padded (layout : Layout Value) (count : Nat) : Layout Value where
  size := layout.size + count
  bytes value := layout.bytes value ++ List.replicate count 0
  ofBytes raw := layout.ofBytes (raw.take layout.size)
  sized value := by rw [List.length_append, layout.sized, List.length_replicate]
  returns value := by
    rw [← layout.sized value, List.take_left, layout.returns]

def record (layout : Layout Value) (fields : Other → Value) (make : Value → Other)
    (made : ∀ value, make (fields value) = value) : Layout Other where
  size := layout.size
  bytes value := layout.bytes (fields value)
  ofBytes raw := make (layout.ofBytes raw)
  sized value := layout.sized (fields value)
  returns value := by rw [layout.returns, made]

end Layout

end ChampSim

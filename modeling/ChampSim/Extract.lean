/-
`extract_if`, which moves the items with a property out of a queue and closes
the gaps that they leave.

A slot from which an item was moved holds nothing until another item is moved
into it, and the loop must not read it in between.
-/

import Mathlib.Data.List.TakeWhile

set_option autoImplicit false

namespace ChampSim.Extract

variable {Item : Type}

/-- The loop from the slot `read` on, `count` slots long. -/
def extractLoop (func : Item → Bool) : Nat → List (Option Item) → Nat → Nat → List Item →
    Option (List (Option Item) × Nat × List Item)
  | 0, slots, write, _, out => some (slots, write, out)
  | count + 1, slots, write, read, out =>
      match slots[read]? with
      | some (some item) =>
          if func item then
            extractLoop func count (slots.set read none) write (read + 1) (out ++ [item])
          else
            extractLoop func count ((slots.set read none).set write (some item)) (write + 1)
              (read + 1) out
      | _ => none

/-- The slots, the end of the items that stay, and the output. -/
def extractIf (func : Item → Bool) (items out : List Item) :
    Option (List (Option Item) × Nat × List Item) :=
  let first := items.findIdx func
  extractLoop func (items.length - first) (items.map some) first first out

/-- The items that stay, then slots that nothing is in, then the items not yet read. -/
def slotsOf (kept : List Item) (gap : Nat) (rest : List Item) : List (Option Item) :=
  kept.map some ++ List.replicate gap none ++ rest.map some

private theorem slotsOf_read (kept rest : List Item) (gap : Nat) (item : Item) :
    (slotsOf kept gap (item :: rest))[kept.length + gap]? = some (some item) := by
  have before : (kept.map some ++ List.replicate gap (none : Option Item)).length =
      kept.length + gap := by
    rw [List.length_append, List.length_map, List.length_replicate]
  unfold slotsOf
  rw [← before, List.getElem?_append_right (Nat.le_refl _), Nat.sub_self]
  rfl

private theorem slotsOf_clear (kept rest : List Item) (gap : Nat) (item : Item) :
    (slotsOf kept gap (item :: rest)).set (kept.length + gap) none =
      slotsOf kept (gap + 1) rest := by
  have before : (kept.map some ++ List.replicate gap (none : Option Item)).length =
      kept.length + gap := by
    rw [List.length_append, List.length_map, List.length_replicate]
  unfold slotsOf
  rw [← before, List.set_append_right _ _ (Nat.le_refl _), Nat.sub_self, List.replicate_succ',
    List.append_assoc, List.append_assoc, List.append_assoc]
  rfl

private theorem slotsOf_write (kept rest : List Item) (gap : Nat) (item : Item) :
    (slotsOf kept (gap + 1) rest).set kept.length (some item) =
      slotsOf (kept ++ [item]) gap rest := by
  have before : (kept.map some).length = kept.length := List.length_map _
  unfold slotsOf
  rw [List.append_assoc, ← before, List.set_append_right _ _ (Nat.le_refl _), Nat.sub_self,
    List.map_append, List.append_assoc, List.append_assoc]
  rfl

theorem extractLoop_eq (func : Item → Bool) (rest kept out : List Item) (gap : Nat) :
    extractLoop func rest.length (slotsOf kept gap rest) kept.length (kept.length + gap) out =
      some (slotsOf (kept ++ rest.filter (fun item => !func item))
          (gap + (rest.filter func).length) [],
        (kept ++ rest.filter (fun item => !func item)).length, out ++ rest.filter func) := by
  induction rest generalizing kept out gap with
  | nil => simp [extractLoop]
  | cons item rest ih =>
      rw [List.length_cons, extractLoop, slotsOf_read]
      dsimp only
      by_cases leaves : func item = true
      · rw [if_pos leaves, slotsOf_clear, Nat.add_assoc, ih, List.filter_cons_of_pos leaves,
          List.filter_cons_of_neg (by rw [leaves]; decide), List.length_cons, List.append_assoc,
          Nat.add_assoc, Nat.add_comm 1]
        rfl
      · have stays : (!func item) = true := by
          rw [Bool.not_eq_true _ |>.mp leaves]
          rfl
        have keeps : (item :: rest).filter (fun item => !func item) =
            item :: rest.filter (fun item => !func item) := List.filter_cons_of_pos stays
        have length : (kept ++ [item]).length = kept.length + 1 := List.length_append
        rw [if_neg leaves, slotsOf_clear, slotsOf_write, ← length,
          show kept.length + gap + 1 = (kept ++ [item]).length + gap by omega, ih,
          List.filter_cons_of_neg leaves, keeps, List.append_assoc]
        rfl

theorem findIdx_eq_takeWhile (func : Item → Bool) (items : List Item) :
    items.findIdx func = (items.takeWhile (fun item => !func item)).length := by
  induction items with
  | nil => rfl
  | cons item rest ih =>
      rw [List.findIdx_cons, List.takeWhile_cons]
      cases func item with
      | true => rfl
      | false => exact congrArg (· + 1) ih

/-- The loop reads no slot that an item was moved from. It appends the items
with the property to the output, and the others stay, both in their order. -/
theorem extractIf_eq (func : Item → Bool) (items out : List Item) :
    ∃ slots, extractIf func items out =
      some (slots, (items.filter (fun item => !func item)).length, out ++ items.filter func) ∧
      slots.take (items.filter (fun item => !func item)).length =
        (items.filter (fun item => !func item)).map some := by
  have first := findIdx_eq_takeWhile func items
  have stay : ∀ item ∈ items.takeWhile (fun item => !func item), (!func item) = true :=
    fun item member => @List.mem_takeWhile_imp _ (fun item => !func item) items item member
  have whole := List.takeWhile_append_dropWhile (p := fun item => !func item) (l := items)
  generalize items.takeWhile (fun item => !func item) = front at first stay whole
  generalize items.dropWhile (fun item => !func item) = rest at whole
  subst whole
  have kept : front.filter (fun item => !func item) = front := List.filter_eq_self.mpr stay
  have none : front.filter func = [] := by
    apply List.filter_eq_nil_iff.mpr
    intro item member leaves
    have stays := stay item member
    rw [leaves] at stays
    cases stays
  have count : (front ++ rest).length - front.length = rest.length := by
    rw [List.length_append]
    omega
  have slots : (front ++ rest).map some = slotsOf front 0 rest := by
    unfold slotsOf
    rw [List.map_append, List.replicate_zero, List.append_nil]
  have looped := extractLoop_eq func rest front out 0
  unfold extractIf
  dsimp only
  rw [first, count, slots, List.filter_append, List.filter_append, kept, none, List.nil_append]
  refine ⟨_, looped, ?_⟩
  unfold slotsOf
  rw [List.append_assoc]
  exact List.take_left' (List.length_map _)

end ChampSim.Extract

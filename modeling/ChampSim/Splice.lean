/-
`splice`: several address slices as one.

The fold of the source is a right fold, and each step overwrites the whole
extent of what lies to its right: a position between two later slices that none
of them contains becomes 0, whatever an earlier slice has there.
-/

import ChampSim.Dram.AddressMapping
import ChampSim.Library.BitFields

set_option autoImplicit false

namespace ChampSim.Splice

open BitFields
open Dram (DynamicExtent AddressSlice SliceError)

/-! ### The fold -/

/-- The mask of the bits from `least` up to `most`, which is not included. -/
def bitmask (most least : Nat) : BitVec 64 :=
  if 64 ≤ most - least then BitVec.allOnes 64 else ((1#64 <<< (most - least)) - 1) <<< least

def spliceBits (upper lower : BitVec 64) (bitsUpper bitsLower : Nat) : BitVec 64 :=
  (upper &&& ~~~bitmask bitsUpper bitsLower) ||| (lower &&& bitmask bitsUpper bitsLower)

def translate (value : BitVec 64) (source target : DynamicExtent) : BitVec 64 :=
  if source.lower ≤ target.lower then value >>> (target.lower - source.lower)
  else value <<< (source.lower - target.lower)

def extentUnion (lhs rhs : DynamicExtent) : DynamicExtent where
  upper := max lhs.upper rhs.upper
  lower := min lhs.lower rhs.lower
  ordered := (min_le_left _ _).trans (lhs.ordered.trans (le_max_left _ _))

/-- `ext >> shamt`. -/
def shiftDown (extent : DynamicExtent) (shamt : Nat) : DynamicExtent where
  upper := extent.upper - shamt
  lower := extent.lower - shamt
  ordered := Nat.sub_le_sub_right extent.ordered shamt

structure SpliceFoldWrapper where
  extent : DynamicExtent
  underlying : BitVec 64
deriving DecidableEq, Repr

namespace SpliceFoldWrapper

def ofSlice (addr : AddressSlice) : SpliceFoldWrapper :=
  { extent := addr.extent, underlying := BitVec.ofNat 64 addr.value }

/-- `operator+`. -/
def add (wrapper other : SpliceFoldWrapper) : SpliceFoldWrapper :=
  let returnExtent := extentUnion wrapper.extent other.extent
  let lhsShifted := translate wrapper.underlying wrapper.extent returnExtent
  let rhsShifted := translate other.underlying other.extent returnExtent
  let window := shiftDown other.extent returnExtent.lower
  { extent := returnExtent
    underlying := spliceBits lhsShifted rhsShifted window.upper window.lower }

def address (wrapper : SpliceFoldWrapper) : Except SliceError AddressSlice :=
  if representable : wrapper.extent.upper ≤ 64 then
    .ok
      { extent := wrapper.extent
        value := wrapper.underlying.toNat % 2 ^ wrapper.extent.size
        representable
        fits := Nat.mod_lt _ (Nat.two_pow_pos _) }
  else .error .upperBound

end SpliceFoldWrapper

def fold (first : AddressSlice) : List AddressSlice → SpliceFoldWrapper
  | [] => .ofSlice first
  | second :: rest => (SpliceFoldWrapper.ofSlice first).add (fold second rest)

def splice (first : AddressSlice) (rest : List AddressSlice) : Except SliceError AddressSlice :=
  (fold first rest).address

/-! ### Bits -/

def Contains (extent : DynamicExtent) (position : Nat) : Prop :=
  extent.lower ≤ position ∧ position < extent.upper

instance (extent : DynamicExtent) (position : Nat) : Decidable (Contains extent position) :=
  inferInstanceAs (Decidable (_ ∧ _))

def bitAt (slice : AddressSlice) (position : Nat) : Bool :=
  decide (slice.extent.lower ≤ position) && slice.value.testBit (position - slice.extent.lower)

theorem contains_of_bitAt {slice : AddressSlice} {position : Nat}
    (set : bitAt slice position = true) : Contains slice.extent position := by
  obtain ⟨above, isSet⟩ := Bool.and_eq_true_iff.mp set
  have lower := of_decide_eq_true above
  refine ⟨lower, ?_⟩
  by_contra beyond
  have small : slice.value < 2 ^ (position - slice.extent.lower) :=
    slice.fits.trans_le (Nat.pow_le_pow_right (by decide) (by
      unfold DynamicExtent.size
      omega))
  rw [Nat.testBit_lt_two_pow small] at isSet
  cases isSet

theorem bitmask_getLsbD (most least position : Nat) (within : most ≤ 64) :
    (bitmask most least).getLsbD position = decide (least ≤ position ∧ position < most) := by
  unfold bitmask
  split
  case isTrue whole =>
    rw [BitVec.getLsbD_allOnes, decide_eq_decide]
    omega
  case isFalse narrow =>
    rw [BitVec.getLsbD_shiftLeft, onesMask_getLsbD (by omega), ← decide_not,
      ← Bool.decide_and, ← Bool.decide_and, decide_eq_decide]
    omega

theorem spliceBits_getLsbD (upper lower : BitVec 64) {bitsUpper bitsLower position : Nat}
    (within : bitsUpper ≤ 64) (small : position < 64) :
    (spliceBits upper lower bitsUpper bitsLower).getLsbD position =
      if bitsLower ≤ position ∧ position < bitsUpper then lower.getLsbD position
      else upper.getLsbD position := by
  unfold spliceBits
  rw [BitVec.getLsbD_or, BitVec.getLsbD_and, BitVec.getLsbD_and, BitVec.getLsbD_not,
    bitmask_getLsbD _ _ _ within, decide_eq_true small]
  by_cases inside : bitsLower ≤ position ∧ position < bitsUpper
  · rw [if_pos inside, decide_eq_true inside]
    simp
  · rw [if_neg inside, decide_eq_false inside]
    simp

/-- A wrapper on the way through the fold, whose bits are known. -/
structure Holds (wrapper : SpliceFoldWrapper) (bits : Nat → Bool) : Prop where
  representable : wrapper.extent.upper ≤ 64
  inside : ∀ position, Contains wrapper.extent position →
    wrapper.underlying.getLsbD (position - wrapper.extent.lower) = bits position
  outside : ∀ position, ¬Contains wrapper.extent position → bits position = false
  fits : ∀ position, wrapper.extent.size ≤ position →
    wrapper.underlying.getLsbD position = false

theorem holds_ofSlice (slice : AddressSlice) :
    Holds (SpliceFoldWrapper.ofSlice slice) (bitAt slice) := by
  have wide : slice.extent.size ≤ 64 := by
    have representable := slice.representable
    unfold DynamicExtent.size
    omega
  have small : slice.value < 2 ^ 64 :=
    slice.fits.trans_le (Nat.pow_le_pow_right (by decide) wide)
  have value : (SpliceFoldWrapper.ofSlice slice).underlying.toNat = slice.value :=
    Nat.mod_eq_of_lt small
  refine ⟨slice.representable, ?_, ?_, ?_⟩
  · intro position contained
    have least : slice.extent.lower ≤ position := contained.1
    rw [← BitVec.testBit_toNat, value, bitAt, decide_eq_true least]
    rfl
  · intro position apart
    exact Bool.eq_false_iff.mpr (fun set => apart (contains_of_bitAt set))
  · intro position beyond
    rw [← BitVec.testBit_toNat, value]
    exact Nat.testBit_lt_two_pow
      (slice.fits.trans_le (Nat.pow_le_pow_right (by decide) beyond))

/-- A translation to an extent that begins no later moves the bits up. -/
theorem translate_getLsbD {wrapper : SpliceFoldWrapper} {bits : Nat → Bool}
    (holds : Holds wrapper bits) (target : DynamicExtent)
    (below : target.lower ≤ wrapper.extent.lower) {position : Nat} (above : target.lower ≤ position)
    (small : position - target.lower < 64) :
    (translate wrapper.underlying wrapper.extent target).getLsbD (position - target.lower) =
      bits position := by
  have shifted : translate wrapper.underlying wrapper.extent target =
      wrapper.underlying <<< (wrapper.extent.lower - target.lower) := by
    unfold translate
    split
    case isTrue same =>
      have equal : target.lower = wrapper.extent.lower := Nat.le_antisymm below same
      rw [equal, Nat.sub_self, BitVec.ushiftRight_zero, BitVec.shiftLeft_zero]
    case isFalse => rfl
  rw [shifted, BitVec.getLsbD_shiftLeft, decide_eq_true small, Bool.true_and]
  by_cases contained : Contains wrapper.extent position
  · have reached : ¬position - target.lower < wrapper.extent.lower - target.lower := by
      have least := contained.1
      omega
    have same : position - target.lower - (wrapper.extent.lower - target.lower) =
        position - wrapper.extent.lower := by omega
    rw [decide_eq_false reached, Bool.not_false, Bool.true_and, same]
    exact holds.inside position contained
  · rw [holds.outside position contained]
    by_cases before : position - target.lower < wrapper.extent.lower - target.lower
    · rw [decide_eq_true before]
      rfl
    · rw [holds.fits _ (by
        unfold DynamicExtent.size
        unfold Contains at contained
        omega), Bool.and_false]

/-- The bits of a union: the right operand overwrites its whole extent. -/
theorem Holds.add_getLsbD {wrapper other : SpliceFoldWrapper} {bits otherBits : Nat → Bool}
    (holds : Holds wrapper bits) (otherHolds : Holds other otherBits) {position : Nat}
    (above : (wrapper.add other).extent.lower ≤ position)
    (small : position - (wrapper.add other).extent.lower < 64) :
    (wrapper.add other).underlying.getLsbD (position - (wrapper.add other).extent.lower) =
      if Contains other.extent position then otherBits position else bits position := by
  have lower : (wrapper.add other).extent.lower = min wrapper.extent.lower other.extent.lower := rfl
  have window : other.extent.upper - (wrapper.add other).extent.lower ≤ 64 :=
    (Nat.sub_le _ _).trans otherHolds.representable
  have first : (wrapper.add other).extent.lower ≤ other.extent.lower := by
    rw [lower]
    exact min_le_right _ _
  have left := translate_getLsbD holds (wrapper.add other).extent
    (by rw [lower]; exact min_le_left _ _) above small
  have right := translate_getLsbD otherHolds (wrapper.add other).extent first above small
  change (spliceBits (translate _ _ (wrapper.add other).extent)
    (translate _ _ (wrapper.add other).extent)
    (other.extent.upper - (wrapper.add other).extent.lower)
    (other.extent.lower - (wrapper.add other).extent.lower)).getLsbD _ = _
  rw [spliceBits_getLsbD _ _ window small, left, right]
  have same : (other.extent.lower - (wrapper.add other).extent.lower ≤
        position - (wrapper.add other).extent.lower ∧
      position - (wrapper.add other).extent.lower <
        other.extent.upper - (wrapper.add other).extent.lower) ↔
      Contains other.extent position := by
    unfold Contains
    omega
  by_cases contained : Contains other.extent position
  · rw [if_pos contained, if_pos (same.mpr contained)]
  · rw [if_neg contained, if_neg (fun inside => contained (same.mp inside))]

theorem Holds.add {wrapper other : SpliceFoldWrapper} {bits otherBits : Nat → Bool}
    (holds : Holds wrapper bits) (otherHolds : Holds other otherBits) :
    Holds (wrapper.add other) (fun position =>
      if Contains other.extent position then otherBits position else bits position) := by
  have upper : (wrapper.add other).extent.upper = max wrapper.extent.upper other.extent.upper := rfl
  have lower : (wrapper.add other).extent.lower = min wrapper.extent.lower other.extent.lower := rfl
  have representable : (wrapper.add other).extent.upper ≤ 64 := by
    rw [upper]
    exact max_le holds.representable otherHolds.representable
  have apart : ∀ position, ¬Contains (wrapper.add other).extent position →
      (if Contains other.extent position then otherBits position else bits position) = false := by
    intro position outside
    unfold Contains at outside
    rw [upper, lower] at outside
    rw [if_neg (by unfold Contains; omega)]
    exact holds.outside position (by unfold Contains; omega)
  refine ⟨representable, ?_, apart, ?_⟩
  · intro position contained
    apply holds.add_getLsbD otherHolds contained.1
    have beyond := contained.2
    omega
  · intro position beyond
    by_cases small : position < 64
    · have found := holds.add_getLsbD otherHolds
        (Nat.le_add_left (wrapper.add other).extent.lower position) (by omega)
      rw [Nat.add_sub_cancel] at found
      rw [found]
      apply apart
      unfold DynamicExtent.size at beyond
      unfold Contains
      omega
    · exact BitVec.getLsbD_of_ge _ _ (by omega)

/-! ### What a splice should hold -/

/-- The bit of the last slice that contains a position, or 0. -/
def lastBit (slices : List AddressSlice) (position : Nat) : Bool :=
  match slices.reverse.find? (fun slice => decide (Contains slice.extent position)) with
  | some slice => bitAt slice position
  | none => false

/-- A position lies in the smallest extent that contains all the slices. -/
def Spanned (slices : List AddressSlice) (position : Nat) : Prop :=
  (∃ slice ∈ slices, slice.extent.lower ≤ position) ∧
    ∃ slice ∈ slices, position < slice.extent.upper

structure Smallest (slices : List AddressSlice) (extent : DynamicExtent) : Prop where
  contains : ∀ slice ∈ slices,
    extent.lower ≤ slice.extent.lower ∧ slice.extent.upper ≤ extent.upper
  least : ∀ other : DynamicExtent,
    (∀ slice ∈ slices, other.lower ≤ slice.extent.lower ∧ slice.extent.upper ≤ other.upper) →
      other.lower ≤ extent.lower ∧ extent.upper ≤ other.upper

/-- The law of `splice`. -/
structure Joins (slices : List AddressSlice) (joined : AddressSlice) : Prop where
  extent : Smallest slices joined.extent
  bits : ∀ position, bitAt joined position = lastBit slices position

def GapsClear (slices : List AddressSlice) : Prop :=
  ∀ front slice later, slices = front ++ slice :: later → ∀ position,
    bitAt slice position = true → Spanned later position →
      ∃ other ∈ later, Contains other.extent position

def foldBit (first : AddressSlice) : List AddressSlice → Nat → Bool
  | [], position => bitAt first position
  | second :: rest, position =>
      if Contains (fold second rest).extent position then foldBit second rest position
      else bitAt first position

section Fold

variable {first : AddressSlice} {rest : List AddressSlice} {position : Nat}

theorem fold_holds (first : AddressSlice) (rest : List AddressSlice) :
    Holds (fold first rest) (foldBit first rest) := by
  induction rest generalizing first with
  | nil => exact holds_ofSlice first
  | cons second rest ih => exact (holds_ofSlice first).add (ih second)

theorem fold_smallest (first : AddressSlice) (rest : List AddressSlice) :
    Smallest (first :: rest) (fold first rest).extent := by
  induction rest generalizing first with
  | nil =>
      constructor
      · intro slice member
        rw [List.mem_singleton.mp member]
        exact ⟨Nat.le_refl _, Nat.le_refl _⟩
      · intro other contains
        exact contains first List.mem_cons_self
  | cons second rest ih =>
      have upper : (fold first (second :: rest)).extent.upper =
          max first.extent.upper (fold second rest).extent.upper := rfl
      have lower : (fold first (second :: rest)).extent.lower =
          min first.extent.lower (fold second rest).extent.lower := rfl
      constructor
      · intro slice member
        rw [upper, lower]
        rcases List.mem_cons.mp member with isFirst | later
        · rw [isFirst]
          exact ⟨min_le_left _ _, le_max_left _ _⟩
        · obtain ⟨least, most⟩ := (ih second).contains slice later
          exact ⟨(min_le_right _ _).trans least, most.trans (le_max_right _ _)⟩
      · intro other contains
        obtain ⟨least, most⟩ := contains first List.mem_cons_self
        obtain ⟨leastRest, mostRest⟩ := (ih second).least other
          (fun slice later => contains slice (List.mem_cons_of_mem first later))
        rw [upper, lower]
        exact ⟨le_min least leastRest, max_le most mostRest⟩

theorem contains_fold (first : AddressSlice) (rest : List AddressSlice) (position : Nat) :
    Contains (fold first rest).extent position ↔ Spanned (first :: rest) position := by
  have smallest := fold_smallest first rest
  constructor
  · intro contained
    constructor
    · by_contra none
      have above : ∀ slice ∈ first :: rest, position + 1 ≤ slice.extent.lower := by
        intro slice member
        by_contra reaches
        exact none ⟨slice, member, by omega⟩
      have ordered : position + 1 ≤ (fold first rest).extent.upper := contained.2
      have least := (smallest.least ⟨(fold first rest).extent.upper, position + 1, ordered⟩
        (fun slice member => ⟨above slice member, (smallest.contains slice member).2⟩)).1
      have most := contained.1
      dsimp only at least
      omega
    · by_contra none
      have below : ∀ slice ∈ first :: rest, slice.extent.upper ≤ position := by
        intro slice member
        by_contra reaches
        exact none ⟨slice, member, by omega⟩
      have most := (smallest.least ⟨position, (fold first rest).extent.lower, contained.1⟩
        (fun slice member => ⟨(smallest.contains slice member).1, below slice member⟩)).2
      have least := contained.2
      dsimp only at most
      omega
  · rintro ⟨⟨lowest, lowMember, low⟩, ⟨highest, highMember, high⟩⟩
    exact ⟨(smallest.contains lowest lowMember).1.trans low,
      high.trans_le (smallest.contains highest highMember).2⟩

theorem lastBit_cons (first : AddressSlice) (rest : List AddressSlice) (position : Nat) :
    lastBit (first :: rest) position =
      if ∃ slice ∈ rest, Contains slice.extent position then lastBit rest position
      else bitAt first position := by
  unfold lastBit
  rw [List.reverse_cons, List.find?_append]
  by_cases covered : ∃ slice ∈ rest, Contains slice.extent position
  · obtain ⟨slice, member, contains⟩ := covered
    have found : (rest.reverse.find?
        (fun slice => decide (Contains slice.extent position))).isSome = true :=
      List.find?_isSome.mpr ⟨slice, List.mem_reverse.mpr member, decide_eq_true contains⟩
    obtain ⟨last, isLast⟩ := Option.isSome_iff_exists.mp found
    rw [if_pos ⟨slice, member, contains⟩, isLast]
    rfl
  · have none : rest.reverse.find? (fun slice => decide (Contains slice.extent position)) = none :=
      List.find?_eq_none.mpr (fun slice member contains =>
        covered ⟨slice, List.mem_reverse.mp member, of_decide_eq_true contains⟩)
    rw [if_neg covered, none]
    by_cases contains : Contains first.extent position
    · rw [Option.none_or, List.find?_cons_of_pos (by exact decide_eq_true contains)]
    · rw [Option.none_or, List.find?_cons_of_neg
        (by intro holds; exact contains (of_decide_eq_true holds))]
      exact (Bool.eq_false_iff.mpr (fun set => contains (contains_of_bitAt set))).symm

theorem foldBit_uncovered (uncovered : ¬∃ slice ∈ first :: rest, Contains slice.extent position) :
    foldBit first rest position = false := by
  have apart : bitAt first position = false := Bool.eq_false_iff.mpr
    (fun set => uncovered ⟨first, List.mem_cons_self, contains_of_bitAt set⟩)
  induction rest generalizing first with
  | nil => exact apart
  | cons second rest ih =>
      unfold foldBit
      split
      case isTrue =>
        have later : ¬∃ slice ∈ second :: rest, Contains slice.extent position := by
          rintro ⟨slice, member, contains⟩
          exact uncovered ⟨slice, List.mem_cons_of_mem first member, contains⟩
        exact ih later (Bool.eq_false_iff.mpr
          (fun set => later ⟨second, List.mem_cons_self, contains_of_bitAt set⟩))
      case isFalse => exact apart

theorem lastBit_uncovered {slices : List AddressSlice}
    (uncovered : ¬∃ slice ∈ slices, Contains slice.extent position) :
    lastBit slices position = false := by
  cases slices with
  | nil => rfl
  | cons first rest =>
      rw [lastBit_cons, if_neg]
      · exact Bool.eq_false_iff.mpr
          (fun set => uncovered ⟨first, List.mem_cons_self, contains_of_bitAt set⟩)
      · rintro ⟨slice, member, contains⟩
        exact uncovered ⟨slice, List.mem_cons_of_mem first member, contains⟩

theorem gapsClear_cons (first : AddressSlice) (rest : List AddressSlice) :
    GapsClear (first :: rest) ↔
      (∀ position, bitAt first position = true → Spanned rest position →
        ∃ other ∈ rest, Contains other.extent position) ∧ GapsClear rest := by
  constructor
  · intro clear
    refine ⟨clear [] first rest rfl, ?_⟩
    intro front slice later split
    exact clear (first :: front) slice later (congrArg (List.cons first) split)
  · rintro ⟨clearFirst, clear⟩ front slice later split
    cases front with
    | nil =>
        cases split
        exact clearFirst
    | cons head front =>
        cases split
        exact clear front slice later rfl

/-- The fold leaves the last bit everywhere exactly when the gaps are clear. -/
theorem foldBit_lastBit_iff (first : AddressSlice) (rest : List AddressSlice) :
    (∀ position, foldBit first rest position = lastBit (first :: rest) position) ↔
      GapsClear (first :: rest) := by
  induction rest generalizing first with
  | nil =>
      rw [gapsClear_cons]
      constructor
      · intro _same
        constructor
        · rintro position _set ⟨⟨slice, impossible, _low⟩, _high⟩
          cases impossible
        · intro front slice later split
          cases front <;> cases split
      · intro _clear position
        rw [lastBit_cons, if_neg]
        · rfl
        · rintro ⟨slice, impossible, _contains⟩
          cases impossible
  | cons second rest ih =>
      rw [gapsClear_cons, ← ih second]
      have folded : ∀ position, foldBit first (second :: rest) position =
          if Contains (fold second rest).extent position then foldBit second rest position
          else bitAt first position := fun _position => rfl
      have reaches : ∀ position, (∃ slice ∈ second :: rest, Contains slice.extent position) →
          Contains (fold second rest).extent position := by
        rintro position ⟨slice, member, contains⟩
        exact (contains_fold second rest position).mpr
          ⟨⟨slice, member, contains.1⟩, ⟨slice, member, contains.2⟩⟩
      constructor
      · intro same
        constructor
        · intro position set spanned
          by_contra uncovered
          have bit := same position
          rw [folded, if_pos ((contains_fold second rest position).mpr spanned),
            foldBit_uncovered uncovered, lastBit_cons, if_neg uncovered, set] at bit
          cases bit
        · intro position
          by_cases covered : ∃ slice ∈ second :: rest, Contains slice.extent position
          · have bit := same position
            rw [folded, if_pos (reaches position covered), lastBit_cons, if_pos covered] at bit
            exact bit
          · rw [foldBit_uncovered covered, lastBit_uncovered covered]
      · rintro ⟨clearFirst, same⟩ position
        rw [folded, lastBit_cons]
        by_cases covered : ∃ slice ∈ second :: rest, Contains slice.extent position
        · rw [if_pos covered, if_pos (reaches position covered)]
          exact same position
        · rw [if_neg covered]
          by_cases inside : Contains (fold second rest).extent position
          · rw [if_pos inside, foldBit_uncovered covered]
            refine (Bool.eq_false_iff.mpr ?_).symm
            intro set
            exact covered (clearFirst position set ((contains_fold second rest position).mp inside))
          · rw [if_neg inside]

theorem splice_returns (first : AddressSlice) (rest : List AddressSlice) :
    ∃ joined, splice first rest = .ok joined ∧ joined.extent = (fold first rest).extent ∧
      ∀ position, bitAt joined position = foldBit first rest position := by
  have holds := fold_holds first rest
  refine ⟨_, dif_pos holds.representable, rfl, ?_⟩
  intro position
  unfold bitAt
  dsimp only
  by_cases contained : Contains (fold first rest).extent position
  · have inside : position - (fold first rest).extent.lower < (fold first rest).extent.size := by
      have below := contained.2
      have above := contained.1
      unfold DynamicExtent.size
      omega
    rw [decide_eq_true contained.1, Bool.true_and, Nat.testBit_mod_two_pow,
      decide_eq_true inside, Bool.true_and, BitVec.testBit_toNat]
    exact holds.inside position contained
  · rw [holds.outside position contained]
    by_cases above : (fold first rest).extent.lower ≤ position
    · have beyond : ¬position - (fold first rest).extent.lower <
          (fold first rest).extent.size := by
        unfold Contains at contained
        unfold DynamicExtent.size
        omega
      rw [Nat.testBit_mod_two_pow, decide_eq_false beyond, Bool.false_and, Bool.and_false]
    · rw [decide_eq_false above, Bool.false_and]

end Fold

/-- A splice joins its slices exactly when no slice has a set bit in a gap
between later ones. -/
theorem splice_joins_iff (first : AddressSlice) (rest : List AddressSlice) :
    (∃ joined, splice first rest = .ok joined ∧ Joins (first :: rest) joined) ↔
      GapsClear (first :: rest) := by
  obtain ⟨joined, returned, extent, bits⟩ := splice_returns first rest
  rw [← foldBit_lastBit_iff]
  constructor
  · rintro ⟨other, alsoReturned, joins⟩ position
    have same : joined = other := Except.ok.inj (returned.symm.trans alsoReturned)
    rw [← bits position, same]
    exact joins.bits position
  · intro same
    refine ⟨joined, returned, ?_, ?_⟩
    · rw [extent]
      exact fold_smallest first rest
    · intro position
      rw [bits position]
      exact same position

def uniform (extent : DynamicExtent) (representable : extent.upper ≤ 64) (set : Bool) :
    AddressSlice where
  extent
  value := if set then 2 ^ extent.size - 1 else 0
  representable
  fits := by
    have positive := Nat.two_pow_pos extent.size
    split <;> omega

def twelveOnes : AddressSlice := uniform ⟨12, 0, by decide⟩ (by decide) true

def upperFour : AddressSlice := uniform ⟨12, 8, by decide⟩ (by decide) false

def lowerFour : AddressSlice := uniform ⟨4, 0, by decide⟩ (by decide) false

/-- The bits between the two later slices are lost. -/
theorem splice_losesGap :
    ¬∀ first rest, ∃ joined, splice first rest = .ok joined ∧ Joins (first :: rest) joined := by
  intro law
  obtain ⟨joined, returned, joins⟩ := law twelveOnes [upperFour, lowerFour]
  have lost : (splice twelveOnes [upperFour, lowerFour]).map (fun slice => bitAt slice 4) =
      .ok false := by decide +kernel
  have kept : lastBit [twelveOnes, upperFour, lowerFour] 4 = true := by decide +kernel
  rw [returned] at lost
  have dropped : bitAt joined 4 = false := Except.ok.inj lost
  have bit := joins.bits 4
  rw [kept, dropped] at bit
  cases bit

end ChampSim.Splice

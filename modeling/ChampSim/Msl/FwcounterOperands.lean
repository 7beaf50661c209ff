/-
The operators of the saturating counter with an operand of any built-in integer
type.

The operator is applied in the type that `long long` and the operand have in
common, and only its result is clamped. With an `unsigned long long` operand the
counter is converted to that type first.
-/

import ChampSim.Msl.Fwcounter
import ChampSim.Msl.IntegerType

set_option autoImplicit false

namespace ChampSim.Msl

open IntegerType (convert InRange)

namespace BaseFwcounter

variable {maxval minval : Int}

section Operators

variable (counter : BaseFwcounter maxval minval) (type : IntegerType) (rhs : BitVec type.width)

/-- The value and the operand, converted to their common type. -/
def converted : Int × Int :=
  (type.withLongLong.convert counter.value, type.withLongLong.convert (type.value rhs))

/-- `_value = clamp(_value op rhs)`, unless the operator is undefined there. -/
def assignOperator (operator : Int → Int → Int) : Option (BaseFwcounter maxval minval) :=
  (type.withLongLong.arithmetic
    (operator (counter.converted type rhs).1 (counter.converted type rhs).2)).map
    (fun result => counter.assign (convert .int64 result))

/-- `operator+=`. -/
def addAssignOperand : Option (BaseFwcounter maxval minval) :=
  counter.assignOperator type rhs (fun lhs rhs => lhs + rhs)

/-- `operator-=`. -/
def subAssignOperand : Option (BaseFwcounter maxval minval) :=
  counter.assignOperator type rhs (fun lhs rhs => lhs - rhs)

/-- `operator*=`. -/
def mulAssignOperand : Option (BaseFwcounter maxval minval) :=
  counter.assignOperator type rhs (fun lhs rhs => lhs * rhs)

/-- `operator/=`. A division by 0 is undefined. -/
def divAssignOperand : Option (BaseFwcounter maxval minval) :=
  if (counter.converted type rhs).2 = 0 then none
  else counter.assignOperator type rhs Int.tdiv

/-- `operator<`. -/
def lessThan : Bool := decide ((counter.converted type rhs).1 < (counter.converted type rhs).2)

/-- `operator==`. -/
def equalTo : Bool := decide ((counter.converted type rhs).1 = (counter.converted type rhs).2)

/-- `operator>`. -/
def greaterThan : Bool := !(counter.equalTo type rhs || counter.lessThan type rhs)

/-- `operator>=`. -/
def greaterEqual : Bool := !counter.lessThan type rhs

/-- `operator<=`. -/
def lessEqual : Bool := !counter.greaterThan type rhs

/-- `operator!=`. -/
def notEqual : Bool := !counter.equalTo type rhs

end Operators

/-! ### What is exact -/

/-- The result fits `long long`. With an `unsigned long long` operand it is also right in a counter
that has one value only. -/
def Representable (maxval minval : Int) (type : IntegerType) (exactly : Int) : Prop :=
  InRange .int64 exactly ∨ (type = .uint64 ∧ minval = maxval)

/-- The result is too large or too small for `long long`, and its residue is at the same end of the
range. -/
def SameEnd (maxval minval exactly : Int) : Prop :=
  (2 ^ 63 ≤ exactly ∧ maxval ≤ (exactly + 2 ^ 63) % 2 ^ 64 - 2 ^ 63) ∨
    (exactly < -2 ^ 63 ∧ (exactly + 2 ^ 63) % 2 ^ 64 - 2 ^ 63 ≤ minval)

/-- A product that does not fit may still saturate as the exact one does. -/
def Saturates (maxval minval : Int) (type : IntegerType) (product : Int) : Prop :=
  Representable maxval minval type product ∨
    (type = .uint64 ∧ SameEnd maxval minval product)

/-- The division is exact unless the counter is negative and converted. -/
def Divisible (maxval : Int) (type : IntegerType) (value divisor : Int) : Prop :=
  type ≠ .uint64 ∨ 0 ≤ value ∨ divisor = 1 ∨
    (-value < divisor ∧ (maxval = 0 ∨ value + 2 ^ 64 < divisor))

/-- The comparisons are those of integers unless the counter is negative and converted. -/
def Comparable (type : IntegerType) (value operand : Int) : Prop :=
  type ≠ .uint64 ∨ 0 ≤ value ∨ value + 2 ^ 64 < operand

/-- The comparison operators order the counter and the operand as integers. -/
structure Ordered (counter : BaseFwcounter maxval minval) (type : IntegerType)
    (rhs : BitVec type.width) : Prop where
  less : counter.lessThan type rhs = decide (counter.value < type.value rhs)
  equal : counter.equalTo type rhs = decide (counter.value = type.value rhs)
  greater : counter.greaterThan type rhs = decide (type.value rhs < counter.value)
  greaterOrEqual : counter.greaterEqual type rhs = decide (type.value rhs ≤ counter.value)
  lessOrEqual : counter.lessEqual type rhs = decide (counter.value ≤ type.value rhs)
  different : counter.notEqual type rhs = decide (counter.value ≠ type.value rhs)

theorem assign_eq_iff (counter : BaseFwcounter maxval minval) (first second : Int) :
    some (counter.assign first) = some (counter.assign second) ↔
      clamp maxval minval first = clamp maxval minval second := by
  rw [Option.some_inj]
  exact ⟨fun same => congrArg BaseFwcounter.value same, fun same => BaseFwcounter.ext same⟩

theorem clamp_convert_iff (ordered : minval ≤ maxval) (low : -2 ^ 31 ≤ minval)
    (high : maxval < 2 ^ 32) (exactly : Int) :
    clamp maxval minval (convert .int64 exactly) = clamp maxval minval exactly ↔
      (InRange .int64 exactly ∨ minval = maxval) ∨ SameEnd maxval minval exactly := by
  rw [IntegerType.int64_inRange_iff, IntegerType.int64_convert]
  unfold clamp SameEnd
  generalize wrapped : (exactly + 2 ^ 63) % 2 ^ 64 - 2 ^ 63 = residue
  have bounds : -2 ^ 63 ≤ residue ∧ residue < 2 ^ 63 := by omega
  by_cases fits : -2 ^ 63 ≤ exactly ∧ exactly ≤ 2 ^ 63 - 1
  · have same : residue = exactly := by omega
    rw [same]
    exact iff_of_true rfl (Or.inl (Or.inl fits))
  · constructor
    · intro clamped
      rw [or_assoc]
      right
      split at clamped <;> split at clamped <;> omega
    · intro hidden
      split <;> split <;> omega

/-! ### Operands that fit `long long` -/

section Signed

variable (counter : BaseFwcounter maxval minval) (low : -2 ^ 31 ≤ minval) (high : maxval < 2 ^ 32)
variable {type : IntegerType} (other : type ≠ .uint64) (rhs : BitVec type.width)

include low high in
theorem value_inRange : InRange .int64 counter.value := by
  have atLeast := counter.atLeast
  have atMost := counter.atMost
  rw [IntegerType.int64_inRange_iff]
  omega

include low high other in
theorem converted_of_other : counter.converted type rhs = (counter.value, type.value rhs) := by
  obtain ⟨common, _lower, _upper⟩ := IntegerType.range_fits other
  unfold converted
  rw [common, IntegerType.int64_convert_of_inRange (counter.value_inRange low high),
    IntegerType.int64_convert_of_inRange (IntegerType.value_fits other rhs)]

include low high other in
theorem assignOperator_of_other (operator : Int → Int → Int) :
    counter.assignOperator type rhs operator =
        some (counter.assign (operator counter.value (type.value rhs))) ↔
      Representable maxval minval type (operator counter.value (type.value rhs)) := by
  obtain ⟨common, _lower, _upper⟩ := IntegerType.range_fits other
  have defined : type.withLongLong.isSigned = true := by rw [common]; rfl
  unfold assignOperator Representable
  rw [counter.converted_of_other low high other rhs, IntegerType.arithmetic, if_pos defined, common]
  by_cases fits : InRange .int64 (operator counter.value (type.value rhs))
  · rw [if_pos fits, Option.map_some, IntegerType.int64_convert_of_inRange fits]
    exact iff_of_true rfl (Or.inl fits)
  · rw [if_neg fits, Option.map_none]
    refine iff_of_false (by simp) ?_
    rintro (inRange | ⟨unsigned, _single⟩)
    · exact fits inRange
    · exact other unsigned

include low high other in
theorem divAssignOperand_of_other (nonzero : type.value rhs ≠ 0) :
    counter.divAssignOperand type rhs =
      some (counter.assign (counter.value.tdiv (type.value rhs))) := by
  have atLeast := counter.atLeast
  have atMost := counter.atMost
  unfold divAssignOperand
  rw [counter.converted_of_other low high other rhs, if_neg nonzero]
  apply (counter.assignOperator_of_other low high other rhs Int.tdiv).mpr
  left
  have small := Int.natAbs_tdiv_le_natAbs counter.value (type.value rhs)
  rw [IntegerType.int64_inRange_iff]
  omega

end Signed

/-! ### `unsigned long long` operands -/

section Unsigned

variable (counter : BaseFwcounter maxval minval) (rhs : BitVec IntegerType.uint64.width)

theorem uint64_operand_range :
    0 ≤ IntegerType.value .uint64 rhs ∧ IntegerType.value .uint64 rhs < 2 ^ 64 := by
  have range := IntegerType.value_inRange .uint64 rhs
  change 0 ≤ _ ∧ _ ≤ 2 ^ 64 - 1 at range
  omega

theorem converted_uint64 :
    counter.converted .uint64 rhs =
      (counter.value % 2 ^ 64, IntegerType.value .uint64 rhs) := by
  have range := uint64_operand_range rhs
  change (convert .uint64 _, convert .uint64 _) = _
  rw [IntegerType.uint64_convert, IntegerType.uint64_convert,
    Int.emod_eq_of_lt range.1 range.2]

theorem assignOperator_uint64 (operator : Int → Int → Int) :
    counter.assignOperator .uint64 rhs operator =
      some (counter.assign (convert .int64
        (operator (counter.value % 2 ^ 64) (IntegerType.value .uint64 rhs)))) := by
  unfold assignOperator
  rw [converted_uint64]
  change some (counter.assign (convert .int64 (convert .uint64 _))) = _
  rw [IntegerType.int64_convert_uint64]

/-- An operator that respects residues is exact where the clamp hides the conversion. -/
theorem assignOperator_uint64_iff (low : -2 ^ 31 ≤ minval) (high : maxval < 2 ^ 32)
    (operator : Int → Int → Int)
    (modular : ∀ lhs operand, operator (lhs % 2 ^ 64) operand % 2 ^ 64 =
      operator lhs operand % 2 ^ 64) :
    counter.assignOperator .uint64 rhs operator =
        some (counter.assign (operator counter.value (IntegerType.value .uint64 rhs))) ↔
      Representable maxval minval .uint64
          (operator counter.value (IntegerType.value .uint64 rhs)) ∨
        SameEnd maxval minval (operator counter.value (IntegerType.value .uint64 rhs)) := by
  have ordered := counter.atLeast.trans counter.atMost
  have sameResidue := modular counter.value (IntegerType.value .uint64 rhs)
  rw [assignOperator_uint64, assign_eq_iff, IntegerType.int64_convert_of_emod sameResidue,
    clamp_convert_iff ordered low high]
  unfold Representable
  simp only [true_and]

theorem not_sameEnd (exactly : Int) (ordered : minval < maxval)
    (least : minval - 2 ^ 64 < exactly) (most : exactly < maxval + 2 ^ 64) (low : -2 ^ 31 ≤ minval)
    (high : maxval < 2 ^ 32) : ¬ SameEnd maxval minval exactly := by
  unfold SameEnd
  omega

/-- Quotients of opposite sign are the same in the counter only where both are clamped to 0. -/
theorem clamp_opposite_iff (nonpositive : minval ≤ 0) (nonnegative : 0 ≤ maxval)
    {quotient exactly : Int} (above : 0 ≤ quotient) (below : 0 ≤ exactly)
    (least : minval ≤ -exactly) :
    clamp maxval minval quotient = clamp maxval minval (-exactly) ↔
      exactly < 1 ∧ (maxval = 0 ∨ quotient < 1) := by
  have kept : clamp maxval minval (-exactly) = -exactly := by
    unfold clamp
    rw [if_neg (by omega), if_neg (by omega)]
  rw [kept, clamp, if_neg (by omega)]
  split <;> omega

theorem wrapped_quotient_iff (nonpositive : minval ≤ 0) (nonnegative : 0 ≤ maxval)
    {value divisor : Int} (least : minval ≤ value) (low : -2 ^ 31 ≤ value) (negative : value < 0)
    (large : 2 ≤ divisor) :
    clamp maxval minval (convert .int64 ((value + 2 ^ 64).tdiv divisor)) =
        clamp maxval minval (value.tdiv divisor) ↔
      -value < divisor ∧ (maxval = 0 ∨ value + 2 ^ 64 < divisor) := by
  have positive : 0 < divisor := by omega
  have quotientFits : (value + 2 ^ 64) / divisor < 2 ^ 63 := by
    rw [Int.ediv_lt_iff_lt_mul positive]
    omega
  have quotientPositive : 0 ≤ (value + 2 ^ 64) / divisor :=
    Int.ediv_nonneg (by omega) (by omega)
  have fits : InRange .int64 ((value + 2 ^ 64) / divisor) := by
    rw [IntegerType.int64_inRange_iff]
    omega
  have exactQuotient : value.tdiv divisor = -(-value / divisor) := by
    rw [← Int.tdiv_eq_ediv_of_nonneg (by omega), Int.neg_tdiv, Int.neg_neg]
  have exactPositive : 0 ≤ -value / divisor := Int.ediv_nonneg (by omega) (by omega)
  have exactSmall : -value / divisor ≤ -value := Int.ediv_le_self divisor (by omega)
  rw [Int.tdiv_eq_ediv_of_nonneg (by omega), IntegerType.int64_convert_of_inRange fits,
    exactQuotient,
    clamp_opposite_iff nonpositive nonnegative quotientPositive exactPositive (by omega),
    Int.ediv_lt_iff_lt_mul positive, Int.ediv_lt_iff_lt_mul positive, Int.one_mul]

theorem divAssignOperand_uint64_iff (nonpositive : minval ≤ 0) (nonnegative : 0 ≤ maxval)
    (low : -2 ^ 31 ≤ minval) (high : maxval < 2 ^ 32)
    (nonzero : IntegerType.value .uint64 rhs ≠ 0) :
    counter.divAssignOperand .uint64 rhs =
        some (counter.assign (counter.value.tdiv (IntegerType.value .uint64 rhs))) ↔
      Divisible maxval .uint64 counter.value (IntegerType.value .uint64 rhs) := by
  have range := uint64_operand_range rhs
  have atLeast := counter.atLeast
  have atMost := counter.atMost
  unfold divAssignOperand
  rw [converted_uint64, if_neg nonzero, assignOperator_uint64, assign_eq_iff]
  generalize IntegerType.value .uint64 rhs = divisor at nonzero range ⊢
  unfold Divisible
  by_cases unsigned : 0 ≤ counter.value
  · have kept : counter.value % 2 ^ 64 = counter.value := by omega
    have small := Int.natAbs_tdiv_le_natAbs counter.value divisor
    have fits : InRange .int64 (counter.value.tdiv divisor) := by
      rw [IntegerType.int64_inRange_iff]
      omega
    rw [kept, IntegerType.int64_convert_of_inRange fits]
    exact iff_of_true rfl (Or.inr (Or.inl unsigned))
  · have wrapped : counter.value % 2 ^ 64 = counter.value + 2 ^ 64 := by omega
    rw [wrapped]
    by_cases single : divisor = 1
    · have back : convert .int64 (counter.value + 2 ^ 64) = counter.value := by
        rw [IntegerType.int64_convert]
        omega
      rw [single, Int.tdiv_one, Int.tdiv_one, back]
      exact iff_of_true rfl (Or.inr (Or.inr (Or.inl rfl)))
    · rw [wrapped_quotient_iff nonpositive nonnegative atLeast (by omega) (by omega) (by omega)]
      simp only [ne_eq, not_true_eq_false, unsigned, single, false_or]

end Unsigned

/-! ### The comparison operators -/

variable (counter : BaseFwcounter maxval minval)

theorem ordered_iff (type : IntegerType) (rhs : BitVec type.width) :
    Ordered counter type rhs ↔
      counter.lessThan type rhs = decide (counter.value < type.value rhs) ∧
        counter.equalTo type rhs = decide (counter.value = type.value rhs) := by
  constructor
  · intro ordered
    exact ⟨ordered.less, ordered.equal⟩
  · rintro ⟨less, equal⟩
    have greater :
        counter.greaterThan type rhs = decide (type.value rhs < counter.value) := by
      rw [greaterThan, less, equal, Bool.eq_iff_iff]
      simp only [Bool.not_eq_true', Bool.or_eq_false_iff, decide_eq_false_iff_not, decide_eq_true_eq]
      omega
    refine ⟨less, equal, greater, ?_, ?_, ?_⟩
    · rw [greaterEqual, less, Bool.eq_iff_iff]
      simp only [Bool.not_eq_true', decide_eq_false_iff_not, decide_eq_true_eq]
      omega
    · rw [lessEqual, greater, Bool.eq_iff_iff]
      simp only [Bool.not_eq_true', decide_eq_false_iff_not, decide_eq_true_eq]
      omega
    · rw [notEqual, equal, decide_not]

theorem ordered_iff_comparable (low : -2 ^ 31 ≤ minval) (high : maxval < 2 ^ 32)
    (type : IntegerType) (rhs : BitVec type.width) :
    Ordered counter type rhs ↔ Comparable type counter.value (type.value rhs) := by
  have atLeast := counter.atLeast
  have atMost := counter.atMost
  rw [ordered_iff]
  unfold lessThan equalTo Comparable
  by_cases unsigned : type = .uint64
  · subst unsigned
    have range := uint64_operand_range rhs
    rw [converted_uint64, decide_eq_decide, decide_eq_decide]
    simp only [ne_eq, not_true_eq_false, false_or]
    generalize IntegerType.value .uint64 rhs = operand at range ⊢
    omega
  · rw [counter.converted_of_other low high unsigned rhs]
    exact iff_of_true ⟨rfl, rfl⟩ (Or.inl unsigned)

/-! ### The operators -/

/-- An operator that respects residues saturates where the conversion to the common type does not
show. -/
theorem assignOperator_iff (low : -2 ^ 31 ≤ minval) (high : maxval < 2 ^ 32)
    (type : IntegerType) (rhs : BitVec type.width) (operator : Int → Int → Int)
    (modular : ∀ lhs operand, operator (lhs % 2 ^ 64) operand % 2 ^ 64 =
      operator lhs operand % 2 ^ 64) :
    counter.assignOperator type rhs operator =
        some (counter.assign (operator counter.value (type.value rhs))) ↔
      Saturates maxval minval type (operator counter.value (type.value rhs)) := by
  unfold Saturates
  by_cases unsigned : type = .uint64
  · subst unsigned
    rw [counter.assignOperator_uint64_iff rhs low high operator modular]
    simp only [true_and]
  · rw [counter.assignOperator_of_other low high unsigned rhs]
    constructor
    · exact Or.inl
    · rintro (representable | ⟨same, _sameEnd⟩)
      · exact representable
      · exact absurd same unsigned

theorem saturates_iff_representable (low : -2 ^ 31 ≤ minval) (high : maxval < 2 ^ 32)
    (ordered : minval ≤ maxval) {type : IntegerType} {exactly : Int}
    (near : type = .uint64 → minval - 2 ^ 64 < exactly ∧ exactly < maxval + 2 ^ 64) :
    Saturates maxval minval type exactly ↔ Representable maxval minval type exactly := by
  constructor
  · rintro (representable | ⟨unsigned, sameEnd⟩)
    · exact representable
    · by_cases single : minval = maxval
      · exact Or.inr ⟨unsigned, single⟩
      · obtain ⟨least, most⟩ := near unsigned
        exact absurd sameEnd (not_sameEnd exactly (by omega) least most low high)
  · exact Or.inl

theorem addAssignOperand_iff (low : -2 ^ 31 ≤ minval) (high : maxval < 2 ^ 32)
    (type : IntegerType) (rhs : BitVec type.width) :
    counter.addAssignOperand type rhs =
        some (counter.assign (counter.value + type.value rhs)) ↔
      Representable maxval minval type (counter.value + type.value rhs) := by
  have atLeast := counter.atLeast
  have atMost := counter.atMost
  rw [← saturates_iff_representable low high (atLeast.trans atMost)]
  · exact counter.assignOperator_iff low high type rhs (fun lhs operand => lhs + operand)
      (fun lhs operand => Int.emod_add_emod lhs (2 ^ 64) operand)
  · intro unsigned
    subst unsigned
    have range := uint64_operand_range rhs
    omega

theorem subAssignOperand_iff (low : -2 ^ 31 ≤ minval) (high : maxval < 2 ^ 32)
    (type : IntegerType) (rhs : BitVec type.width) :
    counter.subAssignOperand type rhs =
        some (counter.assign (counter.value - type.value rhs)) ↔
      Representable maxval minval type (counter.value - type.value rhs) := by
  have atLeast := counter.atLeast
  have atMost := counter.atMost
  rw [← saturates_iff_representable low high (atLeast.trans atMost)]
  · exact counter.assignOperator_iff low high type rhs (fun lhs operand => lhs - operand)
      (fun lhs operand => Int.emod_sub_emod lhs (2 ^ 64) operand)
  · intro unsigned
    subst unsigned
    have range := uint64_operand_range rhs
    omega

theorem mulAssignOperand_iff (low : -2 ^ 31 ≤ minval) (high : maxval < 2 ^ 32)
    (type : IntegerType) (rhs : BitVec type.width) :
    counter.mulAssignOperand type rhs =
        some (counter.assign (counter.value * type.value rhs)) ↔
      Saturates maxval minval type (counter.value * type.value rhs) := by
  apply counter.assignOperator_iff low high type rhs (fun lhs operand => lhs * operand)
  intro lhs operand
  rw [Int.mul_emod, Int.emod_emod_of_dvd lhs (Int.dvd_refl _), ← Int.mul_emod]

theorem divAssignOperand_iff (nonpositive : minval ≤ 0) (nonnegative : 0 ≤ maxval)
    (low : -2 ^ 31 ≤ minval) (high : maxval < 2 ^ 32) (type : IntegerType)
    (rhs : BitVec type.width) (nonzero : type.value rhs ≠ 0) :
    counter.divAssignOperand type rhs =
        some (counter.assign (counter.value.tdiv (type.value rhs))) ↔
      Divisible maxval type counter.value (type.value rhs) := by
  by_cases unsigned : type = .uint64
  · subst unsigned
    exact counter.divAssignOperand_uint64_iff rhs nonpositive nonnegative low high nonzero
  · exact iff_of_true (counter.divAssignOperand_of_other low high unsigned rhs nonzero)
      (Or.inl unsigned)

/-- When each operator leaves the exact result, clamped, and when the comparison operators order
the counter and the operand as integers. -/
theorem operand_iff (nonpositive : minval ≤ 0) (nonnegative : 0 ≤ maxval)
    (low : -2 ^ 31 ≤ minval) (high : maxval < 2 ^ 32) (type : IntegerType)
    (rhs : BitVec type.width) :
    (counter.addAssignOperand type rhs =
          some (counter.assign (counter.value + type.value rhs)) ↔
        Representable maxval minval type (counter.value + type.value rhs)) ∧
      (counter.subAssignOperand type rhs =
          some (counter.assign (counter.value - type.value rhs)) ↔
        Representable maxval minval type (counter.value - type.value rhs)) ∧
      (counter.mulAssignOperand type rhs =
          some (counter.assign (counter.value * type.value rhs)) ↔
        Saturates maxval minval type (counter.value * type.value rhs)) ∧
      (type.value rhs ≠ 0 →
        (counter.divAssignOperand type rhs =
            some (counter.assign (counter.value.tdiv (type.value rhs))) ↔
          Divisible maxval type counter.value (type.value rhs))) ∧
      (Ordered counter type rhs ↔ Comparable type counter.value (type.value rhs)) := by
  refine ⟨counter.addAssignOperand_iff low high type rhs,
    counter.subAssignOperand_iff low high type rhs,
    counter.mulAssignOperand_iff low high type rhs, ?_,
    counter.ordered_iff_comparable low high type rhs⟩
  intro nonzero
  exact counter.divAssignOperand_iff nonpositive nonnegative low high type rhs nonzero

theorem operand_iff_saturated :
    (Sfwcounter.zero 8).addAssignOperand .int64 1000#64 = some ((Sfwcounter.zero 8).assign 1000) :=
  ((Sfwcounter.zero 8).operand_iff (by decide) (by decide) (by decide) (by decide) .int64
    1000#64).1.mpr (Or.inl (by decide))

/-- A counter at -2, with `unsigned long long` operands: divided by 2 it saturates at its maximum, it
is not less than 5, and with the greatest operand added it does not saturate at its maximum. -/
theorem operand_wraps :
    ((Sfwcounter.zero 8).assign (-2)).value = -2 ∧
      ((Sfwcounter.zero 8).assign (-2)).divAssignOperand .uint64 2#64 =
        some ((Sfwcounter.zero 8).assign 127) ∧
      ((Sfwcounter.zero 8).assign (-2)).divAssignOperand .uint64 2#64 ≠
        some (((Sfwcounter.zero 8).assign (-2)).assign ((-2 : Int).tdiv 2)) ∧
      ((Sfwcounter.zero 8).assign (-2)).lessThan .uint64 5#64 = false ∧
      ((Sfwcounter.zero 8).assign (-2)).addAssignOperand .uint64 (BitVec.allOnes 64) =
        some ((Sfwcounter.zero 8).assign (-3)) := by
  decide

/-- With operands of at most 32 bits `operator+=` and `operator-=` are exact before the clamp. -/
theorem narrow_operand (low : -2 ^ 31 ≤ minval) (high : maxval < 2 ^ 32) {type : IntegerType}
    (narrow : type.width ≤ 32) (rhs : BitVec type.width) :
    counter.addAssignOperand type rhs = some (counter.addAssign (type.value rhs)) ∧
      counter.subAssignOperand type rhs = some (counter.subAssign (type.value rhs)) := by
  have atLeast := counter.atLeast
  have atMost := counter.atMost
  have range := IntegerType.value_narrow narrow rhs
  constructor
  · apply (counter.addAssignOperand_iff low high type rhs).mpr
    left
    rw [IntegerType.int64_inRange_iff]
    omega
  · apply (counter.subAssignOperand_iff low high type rhs).mpr
    left
    rw [IntegerType.int64_inRange_iff]
    omega

end BaseFwcounter

end ChampSim.Msl

/-
`folded_shift_register`: a history of bits that is folded to words of a fixed
length when its value is asked for.

The history is kept in values of 64 bits, as many whole words in each as fit,
with the newest bit at position 0 of the first value. A push carries the
highest bit of each value into the next one, and the last value is masked to
what is left of the length.
-/

import ChampSim.Library.Parity
import ChampSim.Splice

set_option autoImplicit false

namespace ChampSim.HashedPerceptron

open Parity
open Splice (bitmask bitmask_getLsbD)

/-- `WORD_LEN`, within what the static assertion allows. -/
structure WordLen where
  bits : Nat
  positive : 0 < bits
  fits : bits ≤ 64

namespace WordLen

variable (wordLen : WordLen)

def numWordsPerValue : Nat := 64 / wordLen.bits

def valueLen : Nat := wordLen.bits * wordLen.numWordsPerValue

theorem numWordsPerValue_pos : 0 < wordLen.numWordsPerValue :=
  Nat.div_pos wordLen.fits wordLen.positive

theorem valueLen_pos : 0 < wordLen.valueLen :=
  Nat.mul_pos wordLen.positive wordLen.numWordsPerValue_pos

theorem valueLen_le : wordLen.valueLen ≤ 64 := Nat.mul_div_le 64 wordLen.bits

end WordLen

structure FoldedShiftRegister (wordLen : WordLen) where
  lastValueMask : BitVec 64
  words : List (BitVec 64)

namespace FoldedShiftRegister

variable {wordLen : WordLen}

def make (wordLen : WordLen) (length : Nat) : FoldedShiftRegister wordLen where
  lastValueMask := bitmask (length % wordLen.valueLen) 0
  words := List.replicate
    (length / wordLen.valueLen + if length % wordLen.valueLen ≠ 0 then 1 else 0) 0

def unpack (wordLen : WordLen) : Nat → (joinedWords result : BitVec 64) → BitVec 64
  | 0, _, result => result
  | turns + 1, joinedWords, result =>
      unpack wordLen turns (joinedWords >>> wordLen.bits) (result ^^^ joinedWords >>> wordLen.bits)

def joinedWords (register : FoldedShiftRegister wordLen) : BitVec 64 :=
  register.words.foldl (fun joined word => joined ^^^ word) 0

def value (register : FoldedShiftRegister wordLen) : BitVec 64 :=
  (if 1 < wordLen.numWordsPerValue then
      unpack wordLen (wordLen.numWordsPerValue + 1) register.joinedWords register.joinedWords
    else register.joinedWords) &&& bitmask wordLen.bits 0

def extractMsb (wordLen : WordLen) (word : BitVec 64) : BitVec 64 :=
  (word &&& (1#64 <<< (wordLen.valueLen - 1))) >>> (wordLen.valueLen - 1)

def shiftAndApplyLsb (wordLen : WordLen) (word lsb : BitVec 64) : BitVec 64 :=
  ((word <<< 1) ||| lsb) &&& bitmask wordLen.valueLen 0

def msbs (register : FoldedShiftRegister wordLen) (ins : Bool) : List (BitVec 64) :=
  (if ins then 1#64 else 0#64) :: register.words.map (extractMsb wordLen)

def shifted (register : FoldedShiftRegister wordLen) (ins : Bool) : List (BitVec 64) :=
  register.words.zipWith (shiftAndApplyLsb wordLen) (register.msbs ins)

def pushBack (register : FoldedShiftRegister wordLen) (ins : Bool) :
    FoldedShiftRegister wordLen :=
  { register with
    words :=
      if register.lastValueMask ≠ 0 then
        (register.shifted ins).modify ((register.shifted ins).length - 1)
          (fun last => last &&& register.lastValueMask)
      else register.shifted ins }

/-- A register after bits were pushed into it, the first of the list first. -/
def pushed (wordLen : WordLen) (length : Nat) (bits : List Bool) : FoldedShiftRegister wordLen :=
  bits.foldl pushBack (make wordLen length)

end FoldedShiftRegister

/-- The bit that was pushed before the newest `age` ones, and 0 before the first. -/
def recent (bits : List Bool) (age : Nat) : Bool := bits.reverse[age]?.getD false

/-! ### Pushes -/

def shiftIn (ins : Bool) (history : Nat → Bool) : Nat → Bool
  | 0 => ins
  | age + 1 => history age

theorem recent_append (bits : List Bool) (ins : Bool) :
    recent (bits ++ [ins]) = shiftIn ins (recent bits) := by
  funext age
  unfold recent
  rw [List.reverse_append, List.reverse_singleton, List.singleton_append]
  cases age with
  | zero => rfl
  | succ age => rfl

def within (length : Nat) (history : Nat → Bool) (age : Nat) : Bool :=
  decide (age < length) && history age

namespace FoldedShiftRegister

variable {wordLen : WordLen}

/-- The values hold a history of some length, as many bits in each as are used. -/
structure Holds (register : FoldedShiftRegister wordLen) (length : Nat)
    (history : Nat → Bool) : Prop where
  mask : register.lastValueMask = bitmask (length % wordLen.valueLen) 0
  count : register.words.length =
    length / wordLen.valueLen + if length % wordLen.valueLen ≠ 0 then 1 else 0
  bits : ∀ (index : Nat) (word : BitVec 64), register.words[index]? = some word →
    ∀ position, word.getLsbD position = (decide (position < wordLen.valueLen) &&
      within length history (index * wordLen.valueLen + position))

theorem make_holds (length : Nat) : Holds (make wordLen length) length (fun _ => false) := by
  refine ⟨rfl, List.length_replicate, ?_⟩
  intro index word present position
  rw [List.eq_of_mem_replicate (List.mem_of_getElem? present)]
  unfold within
  rw [Bool.and_false, Bool.and_false]
  exact BitVec.getLsbD_zero

theorem extractMsb_eq (word : BitVec 64) :
    extractMsb wordLen word =
      if word.getLsbD (wordLen.valueLen - 1) then 1#64 else 0#64 := by
  have small := wordLen.valueLen_le
  have positive := wordLen.valueLen_pos
  apply BitVec.eq_of_getLsbD_eq
  intro position _inside
  unfold extractMsb
  rw [BitVec.getLsbD_ushiftRight, BitVec.getLsbD_and, BitVec.getLsbD_shiftLeft,
    BitVec.getLsbD_one]
  cases position with
  | zero =>
      have inside : wordLen.valueLen - 1 < 64 := by omega
      cases word.getLsbD (wordLen.valueLen - 1) with
      | false => simp
      | true => simp [inside]
  | succ position =>
      cases word.getLsbD (wordLen.valueLen - 1) with
      | false => simp
      | true => simp

theorem shiftAndApplyLsb_getLsbD (word : BitVec 64) (lsb : Bool) (position : Nat) :
    (shiftAndApplyLsb wordLen word (if lsb then 1#64 else 0#64)).getLsbD position =
      (decide (position < wordLen.valueLen) &&
        shiftIn lsb (fun older => word.getLsbD older) position) := by
  have small := wordLen.valueLen_le
  unfold shiftAndApplyLsb
  rw [BitVec.getLsbD_and, bitmask_getLsbD _ _ _ small, BitVec.getLsbD_or,
    BitVec.getLsbD_shiftLeft, Bool.and_comm]
  simp only [Nat.zero_le, true_and]
  by_cases used : position < wordLen.valueLen
  · have inside : position < 64 := by omega
    rw [decide_eq_true used, Bool.true_and, Bool.true_and]
    cases position with
    | zero => cases lsb <;> rfl
    | succ position =>
        have clear : (if lsb then 1#64 else 0#64).getLsbD (position + 1) = false := by
          cases lsb with
          | false => exact BitVec.getLsbD_zero
          | true =>
              rw [if_pos rfl, BitVec.getLsbD_one]
              simp
        rw [clear, decide_eq_true inside, decide_eq_false (by omega), Bool.or_false]
        rfl
  · rw [decide_eq_false used, Bool.false_and, Bool.false_and]

/-- A value after a push, before the last one is masked: what is carried into it is the newest
bit or the highest bit of the value before. -/
theorem shifted_bits {register : FoldedShiftRegister wordLen} {length : Nat}
    {history : Nat → Bool} (holds : Holds register length history) (ins : Bool) (index : Nat)
    (word : BitVec 64)
    (present : (register.shifted ins)[index]? = some word) (position : Nat) :
    word.getLsbD position = (decide (position < wordLen.valueLen) &&
      shiftIn ins (within length history) (index * wordLen.valueLen + position)) := by
  have positive := wordLen.valueLen_pos
  unfold shifted msbs at present
  rw [List.getElem?_zipWith_eq_some] at present
  obtain ⟨older, msb, atIndex, carried, same⟩ := present
  have bits := holds.bits index older atIndex
  obtain ⟨lsb, isLsb, value⟩ : ∃ lsb, msb = (if lsb then 1#64 else 0#64) ∧
      lsb = shiftIn ins (within length history) (index * wordLen.valueLen) := by
    cases index with
    | zero =>
        rw [List.getElem?_cons_zero, Option.some.injEq] at carried
        exact ⟨ins, carried.symm, by rw [Nat.zero_mul]; rfl⟩
    | succ index =>
        rw [List.getElem?_cons_succ, List.getElem?_map, Option.map_eq_some_iff] at carried
        obtain ⟨before, atBefore, isMsb⟩ := carried
        rw [extractMsb_eq] at isMsb
        refine ⟨_, isMsb.symm, ?_⟩
        have used : wordLen.valueLen - 1 < wordLen.valueLen := by omega
        have next : (index + 1) * wordLen.valueLen =
            index * wordLen.valueLen + (wordLen.valueLen - 1) + 1 := by
          rw [Nat.succ_mul]
          omega
        rw [holds.bits index before atBefore, decide_eq_true used, Bool.true_and, next]
        rfl
  rw [← same, isLsb, shiftAndApplyLsb_getLsbD, value]
  by_cases used : position < wordLen.valueLen
  · cases position with
    | zero => rfl
    | succ position =>
        have older : position < wordLen.valueLen := by omega
        change (_ && _) = (_ && within length history (index * wordLen.valueLen + position))
        rw [shiftIn, bits, decide_eq_true older, Bool.true_and]
  · rw [decide_eq_false used, Bool.false_and, Bool.false_and]

/-- A used position is inside the length, unless it is in the last value and past the rest. -/
theorem position_inside {length index position : Nat}
    (among : index < length / wordLen.valueLen + if length % wordLen.valueLen ≠ 0 then 1 else 0)
    (used : position < wordLen.valueLen) :
    index * wordLen.valueLen + position < length ↔
      (length % wordLen.valueLen ≠ 0 → index = length / wordLen.valueLen →
        position < length % wordLen.valueLen) := by
  have whole := Nat.div_add_mod length wordLen.valueLen
  rw [Nat.mul_comm] at whole
  by_cases last : index = length / wordLen.valueLen
  · rw [last]
    rw [last] at among
    split at among
    · constructor
      · intro inside _rest _last
        omega
      · intro below
        have rest := below ‹_› rfl
        omega
    · omega
  · have earlier : index + 1 ≤ length / wordLen.valueLen := by
      split at among <;> omega
    have scaled := Nat.mul_le_mul_right wordLen.valueLen earlier
    rw [Nat.succ_mul] at scaled
    constructor
    · intro _inside _rest impossible
      exact absurd impossible last
    · intro _below
      omega

theorem bitmask_ne_zero {rest : Nat} (small : rest < 64) : bitmask rest 0 ≠ 0 ↔ rest ≠ 0 := by
  constructor
  · intro nonzero none
    apply nonzero
    rw [none]
    rfl
  · intro some zero
    have first := bitmask_getLsbD rest 0 0 (by omega)
    rw [zero, decide_eq_true (by omega)] at first
    cases first

theorem within_shiftIn {length age : Nat} (inside : age < length) (ins : Bool)
    (history : Nat → Bool) :
    shiftIn ins (within length history) age = within length (shiftIn ins history) age := by
  unfold within
  rw [decide_eq_true inside, Bool.true_and]
  cases age with
  | zero => rfl
  | succ age =>
      change (decide (age < length) && history age) = history age
      rw [decide_eq_true (by omega), Bool.true_and]

theorem shifted_length (register : FoldedShiftRegister wordLen) (ins : Bool) :
    (register.shifted ins).length = register.words.length := by
  unfold shifted msbs
  rw [List.length_zipWith, List.length_cons, List.length_map]
  omega

theorem pushBack_length (register : FoldedShiftRegister wordLen) (ins : Bool) :
    (register.pushBack ins).words.length = register.words.length := by
  unfold pushBack
  dsimp only
  split
  · rw [List.length_modify, shifted_length]
  · exact register.shifted_length ins

theorem pushBack_word {register : FoldedShiftRegister wordLen} {ins : Bool} {index : Nat}
    {word : BitVec 64} (present : (register.pushBack ins).words[index]? = some word) :
    ∃ before, (register.shifted ins)[index]? = some before ∧
      word = if register.lastValueMask ≠ 0 ∧ index + 1 = register.words.length then
        before &&& register.lastValueMask else before := by
  unfold pushBack at present
  dsimp only at present
  rw [shifted_length] at present
  split at present
  · rename_i masked
    rw [List.getElem?_modify, Option.map_eq_map, Option.map_eq_some_iff] at present
    obtain ⟨before, atIndex, same⟩ := present
    have inside := (List.getElem?_eq_some_iff.mp atIndex).1
    rw [shifted_length] at inside
    refine ⟨before, atIndex, ?_⟩
    by_cases last : index + 1 = register.words.length
    · rw [if_pos ⟨masked, last⟩, ← same, if_pos (by omega)]
    · rw [if_neg (fun both => last both.2), ← same, if_neg (by omega)]
  · rename_i unmasked
    exact ⟨word, present, by rw [if_neg (fun both => unmasked both.1)]⟩

theorem Holds.pushBack {register : FoldedShiftRegister wordLen} {length : Nat}
    {history : Nat → Bool} (holds : Holds register length history) (ins : Bool) :
    Holds (register.pushBack ins) length (shiftIn ins history) := by
  have below : length % wordLen.valueLen < wordLen.valueLen :=
    Nat.mod_lt length wordLen.valueLen_pos
  have small := wordLen.valueLen_le
  have masked : register.lastValueMask ≠ 0 ↔ length % wordLen.valueLen ≠ 0 := by
    rw [holds.mask]
    exact bitmask_ne_zero (by omega)
  have count := holds.count
  refine ⟨holds.mask, (register.pushBack_length ins).trans count, ?_⟩
  intro index word present position
  obtain ⟨before, atIndex, same⟩ := pushBack_word present
  have among := (List.getElem?_eq_some_iff.mp atIndex).1
  rw [shifted_length, count] at among
  have bits := shifted_bits holds ins index before atIndex position
  have maskBits : register.lastValueMask.getLsbD position =
      decide (position < length % wordLen.valueLen) := by
    rw [holds.mask, bitmask_getLsbD _ _ _ (by omega)]
    simp only [Nat.zero_le, true_and]
  by_cases used : position < wordLen.valueLen
  · have inside := position_inside among used
    rw [decide_eq_true used, Bool.true_and] at bits ⊢
    by_cases last : register.lastValueMask ≠ 0 ∧ index + 1 = register.words.length
    · have rest := masked.mp last.1
      rw [if_pos rest] at count
      have isLast : index = length / wordLen.valueLen := by omega
      rw [same, if_pos last, BitVec.getLsbD_and, maskBits, bits]
      by_cases kept : position < length % wordLen.valueLen
      · rw [decide_eq_true kept, Bool.and_true]
        exact within_shiftIn (inside.mpr (fun _ _ => kept)) ins history
      · unfold within
        rw [decide_eq_false kept, Bool.and_false,
          decide_eq_false (fun below => kept (inside.mp below rest isLast)), Bool.false_and]
    · rw [same, if_neg last, bits]
      apply within_shiftIn
      apply inside.mpr
      intro rest isLast
      rw [if_pos rest] at count
      exact absurd ⟨masked.mpr rest, by omega⟩ last
  · rw [decide_eq_false used, Bool.false_and] at bits ⊢
    rw [same]
    split
    · rw [BitVec.getLsbD_and, bits, Bool.false_and]
    · exact bits

theorem pushed_holds (length : Nat) (bits : List Bool) :
    Holds (pushed wordLen length bits) length (recent bits) := by
  induction bits using List.reverseRecOn with
  | nil => exact make_holds length
  | append_singleton bits ins ih =>
      unfold pushed at ih ⊢
      rw [List.foldl_append, recent_append]
      exact ih.pushBack ins

/-! ### The value -/

theorem foldl_xor_getLsbD (words : List (BitVec 64)) (position : Nat) (selected : Nat → Bool)
    (bits : ∀ (index : Nat) (word : BitVec 64), words[index]? = some word →
      word.getLsbD position = selected index) :
    (words.foldl (fun joined word => joined ^^^ word) 0).getLsbD position =
      parity words.length selected := by
  induction words using List.reverseRecOn with
  | nil => exact BitVec.getLsbD_zero
  | append_singleton words word ih =>
      have last : (words ++ [word])[words.length]? = some word := List.getElem?_concat_length
      rw [List.foldl_append, List.foldl_cons, List.foldl_nil, BitVec.getLsbD_xor,
        List.length_append, List.length_singleton, parity_succ, ih, bits _ _ last]
      intro index earlier present
      apply bits index earlier
      rw [List.getElem?_append_left (List.getElem?_eq_some_iff.mp present).1]
      exact present

theorem unpack_getLsbD (turns : Nat) (joined result : BitVec 64) (position : Nat) :
    (unpack wordLen turns joined result).getLsbD position =
      (result.getLsbD position ^^
        parity turns (fun turn => joined.getLsbD ((turn + 1) * wordLen.bits + position))) := by
  induction turns generalizing joined result with
  | zero => rw [parity_zero, Bool.xor_false, unpack]
  | succ turns ih =>
      have later : ∀ turn, wordLen.bits + ((turn + 1) * wordLen.bits + position) =
          (1 + turn + 1) * wordLen.bits + position := by
        intro turn
        rw [Nat.succ_mul (1 + turn), Nat.add_comm 1 turn]
        omega
      rw [unpack, ih, BitVec.getLsbD_xor, BitVec.getLsbD_ushiftRight, Nat.add_comm turns 1,
        parity_add, parity_succ, parity_zero, Bool.false_xor, Bool.xor_assoc]
      simp only [BitVec.getLsbD_ushiftRight, later, Nat.zero_add, Nat.one_mul]

/-- A bit of the value is the parity of the joined bits at its position in every word. -/
theorem value_getLsbD (register : FoldedShiftRegister wordLen) (position : Nat)
    (inWord : position < wordLen.bits)
    (unused : ∀ beyond, wordLen.valueLen ≤ beyond → register.joinedWords.getLsbD beyond = false) :
    register.value.getLsbD position = parity wordLen.numWordsPerValue
      (fun word => register.joinedWords.getLsbD (word * wordLen.bits + position)) := by
  have positive := wordLen.numWordsPerValue_pos
  have past : ∀ word, wordLen.numWordsPerValue ≤ word →
      register.joinedWords.getLsbD (word * wordLen.bits + position) = false := by
    intro word beyond
    apply unused
    have scaled := Nat.mul_le_mul_right wordLen.bits beyond
    unfold WordLen.valueLen
    rw [Nat.mul_comm]
    omega
  unfold value
  rw [BitVec.getLsbD_and, bitmask_getLsbD _ _ _ wordLen.fits,
    decide_eq_true (show 0 ≤ position ∧ position < wordLen.bits from ⟨Nat.zero_le _, inWord⟩),
    Bool.and_true]
  split
  · rw [unpack_getLsbD, ← parity_extend (show wordLen.numWordsPerValue ≤
      1 + (wordLen.numWordsPerValue + 1) by omega) past, parity_add 1, parity_succ 0, parity_zero,
      Bool.false_xor, Nat.zero_mul, Nat.zero_add]
    simp only [Nat.add_comm 1]
  · have single : wordLen.numWordsPerValue = 1 := by omega
    rw [single, parity_succ, parity_zero, Bool.false_xor, Nat.zero_mul, Nat.zero_add]

/-- In one value, the positions of a bit of the words are one in every word. -/
theorem parity_words (index : Nat) (selected : Nat → Bool) (position : Nat)
    (inWord : position < wordLen.bits) :
    parity wordLen.valueLen (fun place =>
        selected (index * wordLen.valueLen + place) &&
          decide ((index * wordLen.valueLen + place) % wordLen.bits = position)) =
      parity wordLen.numWordsPerValue (fun word =>
        selected (index * wordLen.valueLen + (word * wordLen.bits + position))) := by
  have rows : wordLen.valueLen = wordLen.numWordsPerValue * wordLen.bits := Nat.mul_comm _ _
  have column : ∀ word place, place < wordLen.bits →
      (index * wordLen.valueLen + (word * wordLen.bits + place)) % wordLen.bits = place := by
    intro word place inside
    rw [rows, ← Nat.mul_assoc, ← Nat.add_assoc, ← Nat.add_mul, Nat.mul_comm, Nat.mul_add_mod,
      Nat.mod_eq_of_lt inside]
  rw [congrArg parity rows, parity_mul]
  apply parity_congr
  intro word _among
  rw [← parity_single inWord (fun place =>
    selected (index * wordLen.valueLen + (word * wordLen.bits + place)))]
  apply parity_congr
  intro place inside
  rw [column word place inside]

theorem Holds.value_getLsbD {register : FoldedShiftRegister wordLen} {length : Nat}
    {history : Nat → Bool} (holds : Holds register length history) (position : Nat)
    (inWord : position < wordLen.bits) :
    register.value.getLsbD position =
      parity length (fun age => history age && decide (age % wordLen.bits = position)) := by
  have joined : ∀ place, register.joinedWords.getLsbD place =
      parity register.words.length (fun index => decide (place < wordLen.valueLen) &&
        within length history (index * wordLen.valueLen + place)) :=
    fun place => foldl_xor_getLsbD register.words place _
      (fun index word present => holds.bits index word present place)
  have unused : ∀ beyond, wordLen.valueLen ≤ beyond →
      register.joinedWords.getLsbD beyond = false := by
    intro beyond past
    rw [joined]
    apply parity_none
    intro index _among
    rw [decide_eq_false (by omega), Bool.false_and]
  have covers : length ≤ register.words.length * wordLen.valueLen := by
    have whole := Nat.div_add_mod length wordLen.valueLen
    have below := Nat.mod_lt length wordLen.valueLen_pos
    rw [Nat.mul_comm] at whole
    rw [holds.count]
    split
    · rw [Nat.succ_mul]
      omega
    · rw [Nat.add_zero]
      omega
  calc register.value.getLsbD position
      = parity wordLen.numWordsPerValue (fun word =>
          parity register.words.length (fun index =>
            within length history (index * wordLen.valueLen + (word * wordLen.bits + position)))) := by
        rw [FoldedShiftRegister.value_getLsbD register position inWord unused]
        apply parity_congr
        intro word among
        have inside : word * wordLen.bits + position < wordLen.valueLen := by
          have scaled := Nat.mul_le_mul_right wordLen.bits (Nat.succ_le_of_lt among)
          unfold WordLen.valueLen
          rw [Nat.mul_comm wordLen.bits]
          rw [Nat.succ_mul] at scaled
          omega
        rw [joined, decide_eq_true inside]
        simp only [Bool.true_and]
    _ = parity register.words.length (fun index =>
          parity wordLen.valueLen (fun place =>
            within length history (index * wordLen.valueLen + place) &&
              decide ((index * wordLen.valueLen + place) % wordLen.bits = position))) := by
        rw [parity_comm]
        apply parity_congr
        intro index _among
        exact (parity_words _ _ position inWord).symm
    _ = parity (register.words.length * wordLen.valueLen) (fun age =>
          within length history age && decide (age % wordLen.bits = position)) :=
        (parity_mul _ _ (fun age =>
          within length history age && decide (age % wordLen.bits = position))).symm
    _ = parity length (fun age =>
          within length history age && decide (age % wordLen.bits = position)) := by
        apply parity_extend covers
        intro age past
        unfold within
        rw [decide_eq_false (by omega), Bool.false_and, Bool.false_and]
    _ = parity length (fun age => history age && decide (age % wordLen.bits = position)) := by
        apply parity_congr
        intro age below
        unfold within
        rw [decide_eq_true below, Bool.true_and]

theorem value_lt (register : FoldedShiftRegister wordLen) :
    register.value.toNat < 2 ^ wordLen.bits := by
  apply Nat.lt_pow_two_of_testBit
  intro position beyond
  unfold value
  rw [BitVec.testBit_toNat, BitVec.getLsbD_and, bitmask_getLsbD _ _ _ wordLen.fits,
    decide_eq_false (by omega), Bool.and_false]

/-- After any pushes, the value of a register is the plain fold of the bits that were pushed. -/
theorem pushed_value (wordLen : WordLen) (length : Nat) (bits : List Bool) :
    (∀ position, position < wordLen.bits →
      (pushed wordLen length bits).value.getLsbD position =
        parity length (fun age => recent bits age && decide (age % wordLen.bits = position))) ∧
      (pushed wordLen length bits).value.toNat < 2 ^ wordLen.bits :=
  ⟨(pushed_holds length bits).value_getLsbD, value_lt _⟩

theorem pushed_value_three :
    (∀ position, position < 12 →
      (pushed ⟨12, by decide, by decide⟩ 30 [true, false, true]).value.getLsbD position =
        parity 30 (fun age => recent [true, false, true] age && decide (age % 12 = position))) ∧
      (pushed ⟨12, by decide, by decide⟩ 30 [true, false, true]).value.toNat < 2 ^ 12 :=
  pushed_value ⟨12, by decide, by decide⟩ 30 [true, false, true]

end FoldedShiftRegister

end ChampSim.HashedPerceptron

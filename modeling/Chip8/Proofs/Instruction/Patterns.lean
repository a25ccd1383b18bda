/-
# Chip8.Proofs.Instruction.Patterns — the opcode table as patterns of four digits.

A pattern says of each digit of a word whether it is fixed, belongs to an operand, or is ignored; the
table has one pattern for every kind but `unknown` (`Op.pattern?`).  A word that matches a pattern is of
its kind and the other way round (`op_eq_iff_matches`), so that no word matches two patterns, and a word
that matches none is unknown.

The table is also a way to write words.  `Pattern.assemble` puts operands into the places that a pattern
has for them, and reading takes them out again.  As the operands and the fixed digits make up all of a
word but its ignored digits, two words of one pattern with the same operands differ in nothing else.
-/
import Chip8.Proofs.Instruction.Rows
import Chip8.TwosComplement
import Mathlib.Algebra.Group.Nat.Defs

namespace Chip8

/-! ## Patterns -/

/-- What a pattern says of one digit of a word. -/
inductive Slot where
  /-- The digit is fixed. -/
  | digit (d : BitVec 4)
  /-- The digit is the first register operand. -/
  | x
  /-- The digit is the second register operand. -/
  | y
  /-- The digit belongs to the number operand, whose digits come last. -/
  | number
  /-- The digit may be any. -/
  | ignored
  deriving DecidableEq

/-- What a row of the opcode table says of the four digits of a word. -/
structure Pattern where
  /-- The leading digit. -/
  first : Slot
  second : Slot
  third : Slot
  last : Slot
  deriving DecidableEq

/-- The pattern of a kind. -/
def Op.pattern? : Op → Option Pattern
  | clearScreen => some ⟨.digit 0x0, .ignored, .digit 0xE, .digit 0x0⟩
  | ret => some ⟨.digit 0x0, .ignored, .digit 0xE, .digit 0xE⟩
  | jump => some ⟨.digit 0x1, .number, .number, .number⟩
  | call => some ⟨.digit 0x2, .number, .number, .number⟩
  | skipEqByte => some ⟨.digit 0x3, .x, .number, .number⟩
  | skipNeByte => some ⟨.digit 0x4, .x, .number, .number⟩
  | skipEqReg => some ⟨.digit 0x5, .x, .y, .digit 0x0⟩
  | loadByte => some ⟨.digit 0x6, .x, .number, .number⟩
  | addByte => some ⟨.digit 0x7, .x, .number, .number⟩
  | copyReg => some ⟨.digit 0x8, .x, .y, .digit 0x0⟩
  | bitOr => some ⟨.digit 0x8, .x, .y, .digit 0x1⟩
  | bitAnd => some ⟨.digit 0x8, .x, .y, .digit 0x2⟩
  | bitXor => some ⟨.digit 0x8, .x, .y, .digit 0x3⟩
  | addReg => some ⟨.digit 0x8, .x, .y, .digit 0x4⟩
  | subReg => some ⟨.digit 0x8, .x, .y, .digit 0x5⟩
  | shiftRight => some ⟨.digit 0x8, .x, .y, .digit 0x6⟩
  | subFrom => some ⟨.digit 0x8, .x, .y, .digit 0x7⟩
  | shiftLeft => some ⟨.digit 0x8, .x, .y, .digit 0xE⟩
  | skipNeReg => some ⟨.digit 0x9, .x, .y, .ignored⟩
  | setIndex => some ⟨.digit 0xA, .number, .number, .number⟩
  | jumpOffset => some ⟨.digit 0xB, .number, .number, .number⟩
  | random => some ⟨.digit 0xC, .x, .number, .number⟩
  | draw => some ⟨.digit 0xD, .x, .y, .number⟩
  | skipPressed => some ⟨.digit 0xE, .x, .digit 0x9, .digit 0xE⟩
  | skipReleased => some ⟨.digit 0xE, .x, .digit 0xA, .digit 0x1⟩
  | readTimer => some ⟨.digit 0xF, .x, .digit 0x0, .digit 0x7⟩
  | awaitKey => some ⟨.digit 0xF, .x, .digit 0x0, .digit 0xA⟩
  | setTimer => some ⟨.digit 0xF, .x, .digit 0x1, .digit 0x5⟩
  | addIndex => some ⟨.digit 0xF, .x, .digit 0x1, .digit 0xE⟩
  | pointGlyph => some ⟨.digit 0xF, .x, .digit 0x2, .digit 0x9⟩
  | storeDecimal => some ⟨.digit 0xF, .x, .digit 0x3, .digit 0x3⟩
  | storeRegs => some ⟨.digit 0xF, .x, .digit 0x5, .digit 0x5⟩
  | loadRegs => some ⟨.digit 0xF, .x, .digit 0x6, .digit 0x5⟩
  | unknown => none

/-- What a digit at a place is worth; the leading one stands at place zero. -/
def placeValue : Fin 4 → Nat
  | 0 => 4096
  | 1 => 256
  | 2 => 16
  | 3 => 1

/-- The digit of a word at a place. -/
def Instruction.digit (i : Instruction) (k : Fin 4) : Nat :=
  i.word.toNat / placeValue k % 16

/-- The digit may stand there. -/
def Slot.Allows (d : Nat) : Slot → Prop
  | digit e => d = e.toNat
  | _ => True

/-- The operands that words can have. -/
structure Operands where
  /-- The first register operand. -/
  x : Fin 16
  /-- The second register operand. -/
  y : Fin 16
  /-- The number operand. -/
  number : Nat

namespace Pattern

/-- What the pattern says of the digit at a place. -/
def place (p : Pattern) : Fin 4 → Slot
  | 0 => p.first
  | 1 => p.second
  | 2 => p.third
  | 3 => p.last

/-- The word has the digits that the pattern fixes. -/
def Matches (p : Pattern) (i : Instruction) : Prop :=
  ∀ k : Fin 4, (p.place k).Allows (i.digit k)

/-- How many digits the number operand has. -/
def width (p : Pattern) : Nat :=
  [p.first, p.second, p.third, p.last].count .number

/-- The number operand of a word: its address, its byte or its last digit. -/
def numberOf (p : Pattern) (i : Instruction) : Nat :=
  match p.width with
  | 0 => 0
  | 1 => i.nibble
  | 2 => i.byte
  | _ => i.address

/-- The word has these operands, as far as the pattern has places for them. -/
structure Has (p : Pattern) (i : Instruction) (o : Operands) : Prop where
  x : (∃ k, p.place k = .x) → i.x = o.x
  y : (∃ k, p.place k = .y) → i.y = o.y
  number : p.width ≠ 0 → p.numberOf i = o.number

/-- The digit that stands at a place of an assembled word. -/
def digitAt (p : Pattern) (o : Operands) (filler : Fin 4 → Fin 16) (k : Fin 4) : Nat :=
  match p.place k with
  | .digit d => d.toNat
  | .x => o.x
  | .y => o.y
  | .number => o.number / placeValue k % 16
  | .ignored => filler k

/-- The word of a pattern with the given operands, and with any digits in the ignored places. -/
def assemble (p : Pattern) (o : Operands) (filler : Fin 4 → Fin 16) : Instruction :=
  ⟨UInt16.ofNat (4096 * p.digitAt o filler 0 + 256 * p.digitAt o filler 1 +
    16 * p.digitAt o filler 2 + p.digitAt o filler 3)⟩

/-- Operands stand where the decoder looks for them: the registers in the second and in the third place,
and the number in the last ones. -/
structure IsOrderly (p : Pattern) : Prop where
  x : ∀ k, p.place k = .x → k = 1
  y : ∀ k, p.place k = .y → k = 2
  number : ∀ k : Fin 4, p.place k = .number ↔ 4 ≤ k.val + p.width
  width : p.width ≤ 3

end Pattern

/-! ## Digits -/

namespace Instruction

variable (i : Instruction)

theorem digit_lt (k : Fin 4) : i.digit k < 16 :=
  Nat.mod_lt _ (by decide)

theorem digit_zero : i.digit 0 = i.family := by
  have := i.family_lt
  show i.word.toNat / 4096 % 16 = i.word.toNat / 4096
  unfold family at this
  omega

theorem digit_one : i.digit 1 = i.x := rfl

theorem digit_two : i.digit 2 = i.y := rfl

theorem digit_three : i.digit 3 = i.nibble := by
  show i.word.toNat / 1 % 16 = i.word.toNat % 16
  rw [Nat.div_one]

/-- The digits make up the word. -/
theorem word_eq_digits :
    i.word.toNat = 4096 * i.digit 0 + 256 * i.digit 1 + 16 * i.digit 2 + i.digit 3 := by
  have hlt := i.word.toNat_lt
  show _ = 4096 * (i.word.toNat / 4096 % 16) + 256 * (i.word.toNat / 256 % 16) +
    16 * (i.word.toNat / 16 % 16) + i.word.toNat / 1 % 16
  omega

theorem byte_eq_digits : i.byte = 16 * i.digit 2 + i.digit 3 := by
  show i.word.toNat % 256 = 16 * (i.word.toNat / 16 % 16) + i.word.toNat / 1 % 16
  omega

theorem address_eq_digits : i.address = 256 * i.digit 1 + 16 * i.digit 2 + i.digit 3 := by
  show i.word.toNat % 4096 =
    256 * (i.word.toNat / 256 % 16) + 16 * (i.word.toNat / 16 % 16) + i.word.toNat / 1 % 16
  omega

end Instruction

/-! ## The table -/

section Table

variable {i : Instruction} {op : Op} {p : Pattern}

theorem Pattern.matches_iff_digits :
    p.Matches i ↔ p.first.Allows (i.digit 0) ∧ p.second.Allows (i.digit 1) ∧
      p.third.Allows (i.digit 2) ∧ p.last.Allows (i.digit 3) := by
  constructor
  · intro h
    exact ⟨h 0, h 1, h 2, h 3⟩
  · rintro ⟨h0, h1, h2, h3⟩ k
    match k with
    | 0 => exact h0
    | 1 => exact h1
    | 2 => exact h2
    | 3 => exact h3

/-- The pattern of a kind fixes the digits that the row of the kind fixes. -/
theorem Op.matches_iff_fits {row : Row} (hp : op.pattern? = some p) (hrow : op.row? = some row) :
    p.Matches i ↔ row.Fits i := by
  have hbyte := i.byte_eq_digits
  have hlast := i.digit_lt 3
  rw [Pattern.matches_iff_digits]
  cases op <;> cases hp <;> cases hrow <;>
    simp only [Slot.Allows, Row.Fits, ← i.digit_zero, ← i.digit_three, hbyte, BitVec.reduceToNat,
      true_and, and_true] <;>
    omega

theorem Op.exists_row (hp : op.pattern? = some p) : ∃ row, op.row? = some row := by
  cases op <;> cases hp <;> exact ⟨_, rfl⟩

/-- A word is of a kind exactly if it matches the pattern of that kind. -/
theorem Instruction.op_eq_iff_matches (hp : op.pattern? = some p) : i.op = op ↔ p.Matches i := by
  obtain ⟨row, hrow⟩ := Op.exists_row hp
  rw [Op.matches_iff_fits hp hrow]
  exact op_eq_iff hrow

/-- The kinds without a pattern are `unknown`. -/
theorem Op.pattern?_eq_none_iff : op.pattern? = none ↔ op = .unknown := by
  cases op <;> simp [Op.pattern?]

theorem Op.isOrderly (hp : op.pattern? = some p) : p.IsOrderly := by
  cases op <;> cases hp <;> exact ⟨by decide, by decide, by decide, by decide⟩

end Table

/-! ## Writing and reading words -/

namespace Pattern

variable {p : Pattern} {o : Operands} {i : Instruction}

theorem digitAt_lt (p : Pattern) (o : Operands) (filler : Fin 4 → Fin 16) (k : Fin 4) :
    p.digitAt o filler k < 16 := by
  unfold digitAt
  cases p.place k with
  | digit d => exact d.isLt
  | x => exact o.x.isLt
  | y => exact o.y.isLt
  | number => exact Nat.mod_lt _ (by decide)
  | ignored => exact (filler k).isLt

/-- An assembled word has the digits that it is assembled from. -/
theorem digit_assemble (p : Pattern) (o : Operands) (filler : Fin 4 → Fin 16) (k : Fin 4) :
    (p.assemble o filler).digit k = p.digitAt o filler k := by
  have h0 := p.digitAt_lt o filler 0
  have h1 := p.digitAt_lt o filler 1
  have h2 := p.digitAt_lt o filler 2
  have h3 := p.digitAt_lt o filler 3
  have hword : (p.assemble o filler).word.toNat =
      4096 * p.digitAt o filler 0 + 256 * p.digitAt o filler 1 + 16 * p.digitAt o filler 2 +
        p.digitAt o filler 3 := by
    simp only [assemble, UInt16.toNat_ofNat']
    omega
  match k with
  | 0 | 1 | 2 | 3 =>
    simp only [Instruction.digit, hword, placeValue]
    omega

/-- An assembled word matches the pattern that it is assembled by. -/
theorem matches_assemble (p : Pattern) (o : Operands) (filler : Fin 4 → Fin 16) :
    p.Matches (p.assemble o filler) := by
  intro k
  rw [digit_assemble, digitAt]
  cases p.place k <;> trivial

/-- The digits of the number operand of a word stand in the places for them. -/
theorem digit_eq_of_number (h : p.IsOrderly) {k : Fin 4} (hk : p.place k = .number)
    (i : Instruction) : i.digit k = p.numberOf i / placeValue k % 16 := by
  have hplace := (h.number k).mp hk
  have hlast := i.digit_three
  have hbyte := i.byte_eq_digits
  have haddress := i.address_eq_digits
  have h1 := i.digit_lt 1
  have h2 := i.digit_lt 2
  have h3 := i.digit_lt 3
  unfold numberOf
  split
  next hwidth =>
    rw [hwidth] at hplace
    omega
  next hwidth =>
    rw [hwidth] at hplace
    obtain rfl : k = 3 := by omega
    simp only [placeValue]
    omega
  next hwidth =>
    rw [hwidth] at hplace
    obtain rfl | rfl : k = 2 ∨ k = 3 := by omega
    all_goals
      simp only [placeValue]
      omega
  next hwidth =>
    have hwidth := h.width
    obtain rfl | rfl | rfl : k = 1 ∨ k = 2 ∨ k = 3 := by omega
    all_goals
      simp only [placeValue]
      omega

/-- An assembled word has the operands that it is assembled from. -/
theorem has_assemble (h : p.IsOrderly) (ho : o.number < 16 ^ p.width) (filler : Fin 4 → Fin 16) :
    p.Has (p.assemble o filler) o := by
  have hdigit := p.digit_assemble o filler
  refine ⟨?_, ?_, ?_⟩
  · rintro ⟨k, hk⟩
    obtain rfl := h.x k hk
    apply Fin.ext
    rw [← Instruction.digit_one, hdigit, digitAt, hk]
  · rintro ⟨k, hk⟩
    obtain rfl := h.y k hk
    apply Fin.ext
    rw [← Instruction.digit_two, hdigit, digitAt, hk]
  · intro hne
    have hnumber (k : Fin 4) (hk : 4 ≤ k.val + p.width) :
        (p.assemble o filler).digit k = o.number / placeValue k % 16 := by
      rw [hdigit, digitAt, (h.number k).mpr hk]
    have hcases : p.width = 1 ∨ p.width = 2 ∨ p.width = 3 := by
      have := h.width
      omega
    rcases hcases with hwidth | hwidth | hwidth
    · rw [hwidth] at ho
      simp only [numberOf, hwidth]
      rw [← Instruction.digit_three, hnumber 3 (by omega), placeValue]
      omega
    · rw [hwidth] at ho
      simp only [numberOf, hwidth]
      rw [Instruction.byte_eq_digits, hnumber 2 (by omega), hnumber 3 (by omega), placeValue, placeValue]
      omega
    · rw [hwidth] at ho
      simp only [numberOf, hwidth]
      rw [Instruction.address_eq_digits, hnumber 1 (by omega), hnumber 2 (by omega),
        hnumber 3 (by omega), placeValue, placeValue, placeValue]
      omega

/-- A word of a pattern has, outside the ignored places, the digits that its operands are written with. -/
theorem digit_eq_digitAt (h : p.IsOrderly) (hi : p.Matches i) (ho : p.Has i o) {k : Fin 4}
    (hk : p.place k ≠ .ignored) (filler : Fin 4 → Fin 16) : i.digit k = p.digitAt o filler k := by
  have hallows := hi k
  unfold digitAt
  cases hplace : p.place k with
  | digit d =>
    rw [hplace] at hallows
    exact hallows
  | x =>
    obtain rfl := h.x k hplace
    rw [Instruction.digit_one, ho.x ⟨1, hplace⟩]
  | y =>
    obtain rfl := h.y k hplace
    rw [Instruction.digit_two, ho.y ⟨2, hplace⟩]
  | number =>
    have hwidth : p.width ≠ 0 := by
      have := (h.number k).mp hplace
      omega
    rw [digit_eq_of_number h hplace, ho.number hwidth]
  | ignored => exact (hk hplace).elim

end Pattern

/-! ## Words out of integers -/

namespace Instruction

/-- The low sixteen bits of an integer are its residue, also below zero. -/
theorem and_mask (k : Int) : TwosComplement.and k 0xFFFF = k % 65536 := by
  cases k with
  | ofNat m =>
    show ((m &&& 0xFFFF : Nat) : Int) = (m : Int) % 65536
    rw [show (0xFFFF : Nat) = 2 ^ 16 - 1 by decide, Nat.and_two_pow_sub_one_eq_mod]
    rfl
  | negSucc m =>
    have hflip : TwosComplement.without 0xFFFF m = 2 ^ 16 - (m % 2 ^ 16 + 1) := by
      apply Nat.eq_of_testBit_eq
      intro j
      rw [TwosComplement.testBit_without, Nat.testBit_two_pow_sub_succ (Nat.mod_lt m (by decide)),
        show (0xFFFF : Nat) = 2 ^ 16 - 1 by decide, Nat.testBit_two_pow_sub_one, Nat.testBit_mod_two_pow]
      by_cases hj : j < 16 <;> simp [hj]
    show ((TwosComplement.without 0xFFFF m : Nat) : Int) = Int.negSucc m % 65536
    rw [hflip]
    omega

theorem toNat_ofInt (k : Int) : ((ofInt k).word.toNat : Int) = k % 65536 := by
  simp only [ofInt, UInt16.toNat_ofNat']
  omega

/-- The operands of a word are its groups of digits. -/
structure HasFields (i : Instruction) : Prop where
  word : i.word.toNat = 4096 * i.family + i.address
  address : i.address = 256 * i.x.val + i.byte
  byte : i.byte = 16 * i.y.val + i.nibble
  digits : i.family < 16 ∧ i.x.val < 16 ∧ i.y.val < 16 ∧ i.nibble < 16

theorem hasFields (i : Instruction) : i.HasFields := by
  have hword := i.word_eq_digits
  have haddress := i.address_eq_digits
  have hbyte := i.byte_eq_digits
  rw [digit_zero, digit_one, digit_two, digit_three] at hword
  rw [digit_one, digit_two, digit_three] at haddress
  rw [digit_two, digit_three] at hbyte
  refine ⟨by omega, by omega, hbyte, i.family_lt, i.x.isLt, i.y.isLt, ?_⟩
  rw [← digit_three]
  exact i.digit_lt 3

/-- **Words are read by the opcode table.**  Any integer is read as the word of its low sixteen bits, and
the operands are groups of the digits of that word.  A word matches one pattern at most, and then it is of
the kind of the pattern; it is unknown if it matches none.  Conversely, a pattern together with any operands
makes words of its kind which have these operands, whatever stands in the ignored places.  And two words of
one pattern with the same operands differ in ignored places only. -/
theorem decoding_meets_opcode_table :
    (∀ k : Int, ofInt k = ofInt (k % 65536) ∧ ((ofInt k).word.toNat : Int) = k % 65536 ∧
      ((ofInt k).word.toNat : Int) = TwosComplement.and k 0xFFFF ∧ (ofInt k).HasFields) ∧
    (∀ (i : Instruction) (op op' : Op) (p p' : Pattern), op.pattern? = some p →
      op'.pattern? = some p' → p.Matches i → p'.Matches i → op = op') ∧
    (∀ (i : Instruction) (op : Op) (p : Pattern), op.pattern? = some p →
      (p.Matches i ↔ i.op = op)) ∧
    (∀ i : Instruction,
      i.op = .unknown ↔ ∀ (op : Op) (p : Pattern), op.pattern? = some p → ¬ p.Matches i) ∧
    (∀ (op : Op) (p : Pattern), op.pattern? = some p → ∀ (o : Operands) (filler : Fin 4 → Fin 16),
      o.number < 16 ^ p.width →
        (p.assemble o filler).op = op ∧ p.Matches (p.assemble o filler) ∧
          p.Has (p.assemble o filler) o) ∧
    (∀ (op : Op) (p : Pattern), op.pattern? = some p → ∀ (i j : Instruction) (o : Operands),
      p.Matches i → p.Matches j → p.Has i o → p.Has j o →
        ∀ k, p.place k ≠ .ignored → i.digit k = j.digit k) := by
  refine ⟨?_, ?_, ?_, ?_, ?_, ?_⟩
  · intro k
    refine ⟨(ofInt_emod k).symm, toNat_ofInt k, ?_, hasFields _⟩
    rw [and_mask, toNat_ofInt]
  · intro i op op' p p' hp hp' hi hi'
    rw [← (op_eq_iff_matches hp).mpr hi]
    exact (op_eq_iff_matches hp').mpr hi'
  · intro i op p hp
    exact (op_eq_iff_matches hp).symm
  · intro i
    constructor
    · intro hunknown op p hp hi
      rw [(op_eq_iff_matches hp).mpr hi] at hunknown
      rw [hunknown] at hp
      cases hp
    · intro hnone
      -- a known word would match the pattern of its own kind
      rw [← Op.pattern?_eq_none_iff, Option.eq_none_iff_forall_ne_some]
      intro p hp
      exact hnone i.op p hp ((op_eq_iff_matches hp).mp rfl)
  · intro op p hp o filler ho
    have hmatches := p.matches_assemble o filler
    exact ⟨(op_eq_iff_matches hp).mpr hmatches, hmatches,
      Pattern.has_assemble (Op.isOrderly hp) ho filler⟩
  · intro op p hp i j o hi hj hio hjo k hk
    have horderly := Op.isOrderly hp
    rw [Pattern.digit_eq_digitAt horderly hi hio hk fun _ => 0,
      Pattern.digit_eq_digitAt horderly hj hjo hk fun _ => 0]

end Instruction

end Chip8

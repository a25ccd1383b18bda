/-
# Chip8.Proofs.Instruction.Rows — the opcode table, row by row.

Every kind of operation but `unknown` has one row in the opcode table.  A row fixes the leading digit of
a word, and where that leaves several kinds it also fixes the last digit or the last two; the other
digits are operands.  `Op.row?` is the table as data, and `Instruction.op_eq_iff` says that a word is of
a kind exactly if it fits the row of that kind.
-/
import Chip8.Instruction

namespace Chip8

/-- The digits of a word that a row of the opcode table fixes. -/
inductive Row where
  /-- The leading digit. -/
  | family (f : Nat)
  /-- The leading digit and the last one. -/
  | nibble (f n : Nat)
  /-- The leading digit and the last two. -/
  | byte (f b : Nat)
  deriving DecidableEq

/-- The word has the digits that the row fixes. -/
def Row.Fits (i : Instruction) : Row → Prop
  | family f => i.family = f
  | nibble f n => i.family = f ∧ i.nibble = n
  | byte f b => i.family = f ∧ i.byte = b

instance (i : Instruction) (row : Row) : Decidable (row.Fits i) :=
  match row with
  | .family _ => inferInstanceAs (Decidable (_ = _))
  | .nibble .. | .byte .. => inferInstanceAs (Decidable (_ ∧ _))

/-- The row of a kind. -/
def Op.row? : Op → Option Row
  | clearScreen => some (.byte 0x0 0xE0)
  | ret => some (.byte 0x0 0xEE)
  | jump => some (.family 0x1)
  | call => some (.family 0x2)
  | skipEqByte => some (.family 0x3)
  | skipNeByte => some (.family 0x4)
  | skipEqReg => some (.nibble 0x5 0x0)
  | loadByte => some (.family 0x6)
  | addByte => some (.family 0x7)
  | copyReg => some (.nibble 0x8 0x0)
  | bitOr => some (.nibble 0x8 0x1)
  | bitAnd => some (.nibble 0x8 0x2)
  | bitXor => some (.nibble 0x8 0x3)
  | addReg => some (.nibble 0x8 0x4)
  | subReg => some (.nibble 0x8 0x5)
  | shiftRight => some (.nibble 0x8 0x6)
  | subFrom => some (.nibble 0x8 0x7)
  | shiftLeft => some (.nibble 0x8 0xE)
  | skipNeReg => some (.family 0x9)
  | setIndex => some (.family 0xA)
  | jumpOffset => some (.family 0xB)
  | random => some (.family 0xC)
  | draw => some (.family 0xD)
  | skipPressed => some (.byte 0xE 0x9E)
  | skipReleased => some (.byte 0xE 0xA1)
  | readTimer => some (.byte 0xF 0x07)
  | awaitKey => some (.byte 0xF 0x0A)
  | setTimer => some (.byte 0xF 0x15)
  | addIndex => some (.byte 0xF 0x1E)
  | pointGlyph => some (.byte 0xF 0x29)
  | storeDecimal => some (.byte 0xF 0x33)
  | storeRegs => some (.byte 0xF 0x55)
  | loadRegs => some (.byte 0xF 0x65)
  | unknown => none

namespace Instruction

variable {i : Instruction} {op : Op} {row : Row}

/-! ## Words fit the rows of their kinds -/

theorem row_of_systemOp {low : Nat} (h : (systemOp low).row? = some row) : row = .byte 0x0 low := by
  unfold systemOp at h
  split at h <;> cases h <;> rfl

theorem row_of_arithmeticOp {n : Nat} (h : (arithmeticOp n).row? = some row) :
    row = .nibble 0x8 n := by
  unfold arithmeticOp at h
  split at h <;> cases h <;> rfl

theorem row_of_keyOp {low : Nat} (h : (keyOp low).row? = some row) : row = .byte 0xE low := by
  unfold keyOp at h
  split at h <;> cases h <;> rfl

theorem row_of_deviceOp {low : Nat} (h : (deviceOp low).row? = some row) :
    row = .byte 0xF low := by
  unfold deviceOp at h
  split at h <;> cases h <;> rfl

/-- A word fits the row of its kind. -/
theorem fits_of_op (h : i.op.row? = some row) : row.Fits i := by
  have hlt := i.family_lt
  unfold Instruction.op at h
  split at h
  case h_1 hf =>
    obtain rfl := row_of_systemOp h
    exact ⟨hf, rfl⟩
  case h_6 hf =>
    split at h
    · next hn =>
      cases h
      exact ⟨hf, hn⟩
    · cases h
  case h_9 hf =>
    obtain rfl := row_of_arithmeticOp h
    exact ⟨hf, rfl⟩
  case h_15 hf =>
    obtain rfl := row_of_keyOp h
    exact ⟨hf, rfl⟩
  case h_16 =>
    obtain rfl := row_of_deviceOp h
    exact ⟨by grind, rfl⟩
  all_goals
    next hf =>
      cases h
      exact hf

theorem op_of_fits (h : op.row? = some row) (hf : row.Fits i) : i.op = op := by
  cases op <;> cases h <;> unfold Row.Fits nibble byte at hf <;>
    simp only [Instruction.op, systemOp, arithmeticOp, keyOp, deviceOp, nibble, hf, reduceIte]

/-- A word is of a kind exactly if it fits the row of that kind. -/
theorem op_eq_iff (h : op.row? = some row) : i.op = op ↔ row.Fits i := by
  constructor
  · rintro rfl
    exact fits_of_op h
  · exact op_of_fits h

end Instruction

end Chip8

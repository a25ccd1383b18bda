/-
# Chip8.Instruction — one instruction word, its operands and its operation kind.

An instruction is its 16-bit word.  The operands are digit groups of the word: with the hexadecimal
digits `ABCD` the family is `A`, the address is `BCD`, the immediate byte is `CD`, the short
immediate is `D`, and the two register operands are `B` and `C`.  Operands are there for every word,
whether or not its kind looks at them.

`Instruction.op` is total: a word that fits no row of the opcode table is `Op.unknown`.
-/
import Chip8.Op
import Chip8.Text.Hex

namespace Chip8

/-- One instruction word. -/
structure Instruction where
  /-- The 16-bit word as it stands in memory, first byte most significant. -/
  word : UInt16
  deriving DecidableEq, Repr, Inhabited

namespace Instruction

/-- The instruction in the low 16 bits of an integer, in two's complement. -/
def ofInt (k : Int) : Instruction :=
  ⟨UInt16.ofNat (k % 65536).toNat⟩

/-- The instruction whose word has the given high and low byte. -/
def ofBytes (high low : UInt8) : Instruction :=
  ⟨UInt16.ofNat (256 * high.toNat + low.toNat)⟩

/-! ## Operands -/

/-- The leading digit, which selects the instruction family. -/
def family (i : Instruction) : Nat :=
  i.word.toNat / 4096

/-- The 12-bit address operand. -/
def address (i : Instruction) : Nat :=
  i.word.toNat % 4096

/-- The immediate byte. -/
def byte (i : Instruction) : Nat :=
  i.word.toNat % 256

/-- The 4-bit immediate. -/
def nibble (i : Instruction) : Nat :=
  i.word.toNat % 16

/-- The first register operand. -/
def x (i : Instruction) : Fin 16 :=
  ⟨i.word.toNat / 256 % 16, by omega⟩

/-- The second register operand. -/
def y (i : Instruction) : Fin 16 :=
  ⟨i.word.toNat / 16 % 16, by omega⟩

/-! ## Operation kind -/

/-- System words, `0?NN`: the second digit is ignored. -/
def systemOp (low : Nat) : Op :=
  match low with
  | 0xE0 => .clearScreen
  | 0xEE => .ret
  | _ => .unknown

/-- Register arithmetic, `8XYN`. -/
def arithmeticOp (n : Nat) : Op :=
  match n with
  | 0x0 => .copyReg
  | 0x1 => .bitOr
  | 0x2 => .bitAnd
  | 0x3 => .bitXor
  | 0x4 => .addReg
  | 0x5 => .subReg
  | 0x6 => .shiftRight
  | 0x7 => .subFrom
  | 0xE => .shiftLeft
  | _ => .unknown

/-- Key tests, `EXNN`. -/
def keyOp (low : Nat) : Op :=
  match low with
  | 0x9E => .skipPressed
  | 0xA1 => .skipReleased
  | _ => .unknown

/-- Timer, key wait, index and block transfer words, `FXNN`. -/
def deviceOp (low : Nat) : Op :=
  match low with
  | 0x07 => .readTimer
  | 0x0A => .awaitKey
  | 0x15 => .setTimer
  | 0x1E => .addIndex
  | 0x29 => .pointGlyph
  | 0x33 => .storeDecimal
  | 0x55 => .storeRegs
  | 0x65 => .loadRegs
  | _ => .unknown

/-- The operation kind of a word.  Equality of registers (`5XY0`) wants a zero in the last place,
while inequality (`9XYn`) takes any digit there. -/
def op (i : Instruction) : Op :=
  let low := i.word.toNat % 256
  match i.family with
  | 0x0 => systemOp low
  | 0x1 => .jump
  | 0x2 => .call
  | 0x3 => .skipEqByte
  | 0x4 => .skipNeByte
  | 0x5 => if i.nibble = 0 then .skipEqReg else .unknown
  | 0x6 => .loadByte
  | 0x7 => .addByte
  | 0x8 => arithmeticOp i.nibble
  | 0x9 => .skipNeReg
  | 0xA => .setIndex
  | 0xB => .jumpOffset
  | 0xC => .random
  | 0xD => .draw
  | 0xE => keyOp low
  | _ => deviceOp low

/-- Whether the word belongs to the instruction set. -/
def isKnown (i : Instruction) : Bool :=
  i.op != .unknown

/-- The word in four hexadecimal digits, and the name of its kind. -/
def text (i : Instruction) : String :=
  Text.hex 4 i.word.toNat ++ " " ++ i.op.name

/-! ## Small laws -/

theorem family_lt (i : Instruction) : i.family < 16 := by
  have := i.word.toNat_lt
  simp only [family]
  omega

theorem ofInt_emod (k : Int) : ofInt (k % 65536) = ofInt k := by
  simp [ofInt]

end Instruction

end Chip8

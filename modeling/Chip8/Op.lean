/-
# Chip8.Op — the operation kinds of the machine.

Every instruction word belongs to exactly one of 34 kinds.  The kind `unknown` stands for all words
outside the instruction set, so that reading a word never fails.  Each kind has a printed name; the
names are pairwise different and are read back by `Op.ofName?`.
-/

namespace Chip8

/-- The kinds of operation a word can ask for, in the order of the opcode table. -/
inductive Op where
  /-- Clear the screen. -/
  | clearScreen
  /-- Return from a subroutine. -/
  | ret
  /-- Jump to an address. -/
  | jump
  /-- Call a subroutine. -/
  | call
  /-- Skip when a register equals a byte. -/
  | skipEqByte
  /-- Skip when a register differs from a byte. -/
  | skipNeByte
  /-- Skip when two registers are equal. -/
  | skipEqReg
  /-- Load a byte into a register. -/
  | loadByte
  /-- Add a byte to a register. -/
  | addByte
  /-- Copy a register. -/
  | copyReg
  /-- Bitwise or of two registers. -/
  | bitOr
  /-- Bitwise and of two registers. -/
  | bitAnd
  /-- Bitwise exclusive or of two registers. -/
  | bitXor
  /-- Add two registers, with carry. -/
  | addReg
  /-- Subtract the second register from the first, with borrow. -/
  | subReg
  /-- Shift right by one bit. -/
  | shiftRight
  /-- Subtract the first register from the second, with borrow. -/
  | subFrom
  /-- Shift left by one bit. -/
  | shiftLeft
  /-- Skip when two registers differ. -/
  | skipNeReg
  /-- Set the index register. -/
  | setIndex
  /-- Jump to an address plus `V0`. -/
  | jumpOffset
  /-- Load a masked random byte. -/
  | random
  /-- Draw a sprite. -/
  | draw
  /-- Skip when a key is down. -/
  | skipPressed
  /-- Skip when a key is up. -/
  | skipReleased
  /-- Read the delay timer. -/
  | readTimer
  /-- Wait for a key to be pressed and released. -/
  | awaitKey
  /-- Set the delay timer. -/
  | setTimer
  /-- Add a register to the index register. -/
  | addIndex
  /-- Point the index register at a glyph. -/
  | pointGlyph
  /-- Store the three decimal digits of a register. -/
  | storeDecimal
  /-- Store a block of registers. -/
  | storeRegs
  /-- Load a block of registers. -/
  | loadRegs
  /-- A word outside the instruction set. -/
  | unknown
  deriving DecidableEq, Repr, Inhabited

namespace Op

/-- All operation kinds, each once. -/
def all : List Op :=
  [clearScreen, ret, jump, call, skipEqByte, skipNeByte, skipEqReg, loadByte, addByte, copyReg,
    bitOr, bitAnd, bitXor, addReg, subReg, shiftRight, subFrom, shiftLeft, skipNeReg, setIndex,
    jumpOffset, random, draw, skipPressed, skipReleased, readTimer, awaitKey, setTimer, addIndex,
    pointGlyph, storeDecimal, storeRegs, loadRegs, unknown]

/-- The printed name of an operation kind. -/
def name : Op → String
  | clearScreen => "OP_CLS"
  | ret => "OP_RET"
  | jump => "OP_JP"
  | call => "OP_CALL"
  | skipEqByte => "OP_SE_IMM"
  | skipNeByte => "OP_SNE_IMM"
  | skipEqReg => "OP_SE_REG"
  | loadByte => "OP_LD_IMM"
  | addByte => "OP_ADD_IMM"
  | copyReg => "OP_LD_REG"
  | bitOr => "OP_OR"
  | bitAnd => "OP_AND"
  | bitXor => "OP_XOR"
  | addReg => "OP_ADD_REG"
  | subReg => "OP_SUB"
  | shiftRight => "OP_SHR"
  | subFrom => "OP_SUBN"
  | shiftLeft => "OP_SHL"
  | skipNeReg => "OP_SNE_REG"
  | setIndex => "OP_LD_I"
  | jumpOffset => "OP_JP_V0"
  | random => "OP_RND"
  | draw => "OP_DRW"
  | skipPressed => "OP_SKP"
  | skipReleased => "OP_SKNP"
  | readTimer => "OP_LD_VX_DT"
  | awaitKey => "OP_LD_KEY"
  | setTimer => "OP_LD_DT_VX"
  | addIndex => "OP_ADD_I"
  | pointGlyph => "OP_LD_FONT"
  | storeDecimal => "OP_BCD"
  | storeRegs => "OP_STORE"
  | loadRegs => "OP_LOAD"
  | unknown => "OP_UNKNOWN"

/-- The operation kind with the given printed name. -/
def ofName? (s : String) : Option Op :=
  all.find? fun op => op.name == s

theorem mem_all (op : Op) : op ∈ all := by
  cases op <;> decide

theorem nodup_all : all.Nodup := by
  decide

theorem ofName?_name (op : Op) : ofName? op.name = some op := by
  cases op <;> decide

theorem name_injective {a b : Op} (h : a.name = b.name) : a = b := by
  have hb := ofName?_name b
  rw [← h, ofName?_name] at hb
  exact Option.some.inj hb

end Op

end Chip8

/-
# Chip8.Font — the glyphs of the sixteen hexadecimal digits.

Each glyph is five rows of eight cells, of which the left four are used.  The glyphs stand one after
the other at the bottom of memory, so the glyph of digit `d` starts at address `5 * d`.
-/

namespace Chip8

namespace Font

/-- Rows in one glyph. -/
def glyphSize : Nat := 5

/-- The address of the first glyph. -/
def start : Nat := 0

/-- The rows of all glyphs, `0` to `F`. -/
def bytes : List UInt8 :=
  [0xF0, 0x90, 0x90, 0x90, 0xF0,
   0x20, 0x60, 0x20, 0x20, 0x70,
   0xF0, 0x10, 0xF0, 0x80, 0xF0,
   0xF0, 0x10, 0xF0, 0x10, 0xF0,
   0x90, 0x90, 0xF0, 0x10, 0x10,
   0xF0, 0x80, 0xF0, 0x10, 0xF0,
   0xF0, 0x80, 0xF0, 0x90, 0xF0,
   0xF0, 0x10, 0x20, 0x40, 0x40,
   0xF0, 0x90, 0xF0, 0x90, 0xF0,
   0xF0, 0x90, 0xF0, 0x10, 0xF0,
   0xF0, 0x90, 0xF0, 0x90, 0x90,
   0xE0, 0x90, 0xE0, 0x90, 0xE0,
   0xF0, 0x80, 0x80, 0x80, 0xF0,
   0xE0, 0x90, 0x90, 0x90, 0xE0,
   0xF0, 0x80, 0xF0, 0x80, 0xF0,
   0xF0, 0x80, 0xF0, 0x80, 0x80]

/-- The five rows of one digit. -/
def glyph (d : Nat) : List UInt8 :=
  (bytes.drop (glyphSize * d)).take glyphSize

/-- Where the glyph of a digit starts. -/
def glyphAddress (d : Int) : Int :=
  start + glyphSize * d

theorem length_bytes : bytes.length = 16 * glyphSize := rfl

end Font

end Chip8

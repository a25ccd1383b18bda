/-
# Chip8.Program.Bundled — three small programs that come with the machine.

The font table draws all sixteen glyphs in two rows and then spins.  The counter shows 0 to 255 over
and over as three decimal digits.  The key echo shows the last key that was pressed and released.
-/

namespace Chip8.Program

/-- The image of a list of words, each with its high byte first. -/
def imageOf (ws : List UInt16) : List UInt8 :=
  ws.flatMap fun (w : UInt16) => [(w >>> 8).toUInt8, w.toUInt8]

/-- Draws the glyphs `0` to `7` in one row and `8` to `F` in the next. -/
def fontTable : List UInt8 :=
  imageOf
    [0x6000, 0x6102, 0x6202, 0xF029, 0xD125, 0x7001, 0x7107, 0x3008, 0x1206,
     0x6102, 0x620A, 0xF029, 0xD125, 0x7001, 0x7107, 0x3010, 0x1216, 0x1222]

/-- Counts a byte up and shows its decimal digits. -/
def decimalCounter : List UInt8 :=
  imageOf
    [0x6300, 0x00E0, 0xA300, 0xF333, 0xF265, 0x6410, 0x650C, 0xF029, 0xD455, 0x7406,
     0xF129, 0xD455, 0x7406, 0xF229, 0xD455, 0x7301, 0x1202]

/-- Waits for a key and shows its glyph. -/
def keyEcho : List UInt8 :=
  imageOf [0xF00A, 0x00E0, 0xF029, 0x6118, 0x620C, 0xD125, 0x1200]

/-- The bundled programs by name. -/
def bundled : List (String × List UInt8) :=
  [("Font Table", fontTable), ("BCD Counter", decimalCounter), ("Key Echo", keyEcho)]

/-- The bundled program of a name. -/
def bundled? (name : String) : Option (List UInt8) :=
  bundled.lookup name

end Chip8.Program

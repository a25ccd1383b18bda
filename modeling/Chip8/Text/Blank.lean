/-
# Chip8.Text.Blank — the characters that separate words, and the words of a text.

Blank are the characters that Unicode counts as separators of words or lines: the ASCII controls from
tab to carriage return and from file to unit separator, the space, the next-line control, and the
space, line and paragraph separators.  The zero-width space is not among them.
-/

namespace Chip8.Text

/-- The blank characters, in ascending order. -/
def blanks : List Nat :=
  [0x09, 0x0A, 0x0B, 0x0C, 0x0D, 0x1C, 0x1D, 0x1E, 0x1F, 0x20, 0x85, 0xA0, 0x1680,
   0x2000, 0x2001, 0x2002, 0x2003, 0x2004, 0x2005, 0x2006, 0x2007, 0x2008, 0x2009, 0x200A,
   0x2028, 0x2029, 0x202F, 0x205F, 0x3000]

/-- Whether a character separates words. -/
def isBlank (c : Char) : Bool :=
  blanks.contains c.toNat

/-- The blanks that may stand around a numeral: the ASCII separators from file to unit are not among
them. -/
def isPadding (c : Char) : Bool :=
  isBlank c && !(decide (0x1C ≤ c.toNat) && decide (c.toNat ≤ 0x1F))

/-- Whether a character separates the words of a word list: a comma or a blank. -/
def isSeparator (c : Char) : Bool :=
  c == ',' || isBlank c

/-- The text goes on with a character of the same word. -/
def continuesWord (isSep : Char → Bool) : List Char → Bool
  | [] => false
  | c :: _ => !isSep c

/-- Puts a character in front of the first word. -/
def extendFirst (c : Char) : List (List Char) → List (List Char)
  | [] => [[c]]
  | w :: ws => (c :: w) :: ws

/-- The words of a text: the longest runs without a separator, in order. -/
def splitWords (isSep : Char → Bool) : List Char → List (List Char)
  | [] => []
  | c :: rest =>
    if isSep c then splitWords isSep rest
    else if continuesWord isSep rest then extendFirst c (splitWords isSep rest)
    else [c] :: splitWords isSep rest

theorem splitWords_cons_separator {isSep : Char → Bool} {c : Char} (h : isSep c = true)
    (rest : List Char) : splitWords isSep (c :: rest) = splitWords isSep rest := by
  simp [splitWords, h]

end Chip8.Text

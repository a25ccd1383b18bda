/-
# Chip8.Text.Quoted — texts in quotes, with escapes for what would not show.

A quoted text stands in single quotes, unless it holds a single quote and no double quote; then it
stands in double quotes.  The backslash and the quote around it are escaped by a backslash, and so is
every character that is not printable: tab, line feed and carriage return by a letter, the others by
their number in two, four or eight small hexadecimal digits.
-/
import Chip8.Text.Hex
import Chip8.Text.Printable

namespace Chip8.Text

/-- The number of a character in the shortest of the three escapes that holds it. -/
def escapeNumber (n : Nat) : List Char :=
  let digits := (hexDigits n).map Char.toLower
  let fill (width : Nat) := List.replicate (width - digits.length) '0' ++ digits
  if n < 0x100 then '\\' :: 'x' :: fill 2
  else if n < 0x10000 then '\\' :: 'u' :: fill 4
  else '\\' :: 'U' :: fill 8

/-- A character as it stands between the given quotes. -/
def escape (quote c : Char) : List Char :=
  if c = quote ∨ c = '\\' then ['\\', c]
  else if c = '\t' then ['\\', 't']
  else if c = '\n' then ['\\', 'n']
  else if c = '\r' then ['\\', 'r']
  else if isPrintable c then [c]
  else escapeNumber c.toNat

/-- The quote that goes around a text. -/
def quoteFor (s : List Char) : Char :=
  if s.contains '\'' && !s.contains '"' then '"' else '\''

/-- A text in quotes. -/
def quoted (s : String) : String :=
  let quote := quoteFor s.toList
  String.ofList (quote :: s.toList.flatMap (escape quote) ++ [quote])

end Chip8.Text

/-
# Chip8.Text.Hex — signed hexadecimal numerals of a least width.

Addresses, words and register values are shown in upper-case hexadecimal, filled up with zeros to a
least width.  The sign of a negative number stands in front of the zeros and counts in the width, so
`-1` in four places is `-001`; a number that needs more places than the width keeps them all.
-/

namespace Chip8.Text

/-- The upper-case hexadecimal digit of a value below sixteen. -/
def hexDigit (d : Nat) : Char :=
  if d < 10 then Char.ofNat (48 + d) else Char.ofNat (55 + d)

/-- The hexadecimal digits of a number, most significant first, without leading zeros. -/
def hexDigits (n : Nat) : List Char :=
  if n < 16 then [hexDigit n] else hexDigits (n / 16) ++ [hexDigit (n % 16)]
termination_by n

/-- The upper-case hexadecimal numeral of `v`, zero-filled to `width` characters, sign included. -/
def hex (width : Nat) (v : Int) : String :=
  let sign := if v < 0 then ['-'] else []
  let digits := hexDigits v.natAbs
  String.ofList (sign ++ List.replicate (width - sign.length - digits.length) '0' ++ digits)

/-- A decimal numeral filled up with blanks on the left to `width` characters. -/
def decimalColumn (width : Nat) (v : Int) : String :=
  let numeral := (toString v).toList
  String.ofList (List.replicate (width - numeral.length) ' ' ++ numeral)

theorem length_hexDigits_pos (n : Nat) : 0 < (hexDigits n).length := by
  unfold hexDigits
  split <;> simp

/-- A number below sixteen is a single digit. -/
theorem hexDigits_lt_sixteen {n : Nat} (h : n < 16) : hexDigits n = [hexDigit n] := by
  unfold hexDigits
  simp [h]

end Chip8.Text

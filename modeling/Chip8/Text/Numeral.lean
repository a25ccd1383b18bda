/-
# Chip8.Text.Numeral — reading whole numbers in a base.

A numeral is an optional sign and digits, between which single underscores may stand.  The digits are
those of the base in either case; a decimal digit of any script counts as its ASCII form.  In base
sixteen `0x` or `0X` may come before the digits, itself followed by at most one underscore.

A decimal numeral, as it is given on a command line, may have blanks around it and has at most 4300
digits; a longer number is neither read nor written in decimal.
-/
import Chip8.Text.Blank
import Chip8.Text.DecimalDigit

namespace Chip8.Text

/-- The ASCII form of a digit of any script; other characters stay. -/
def plainDigit (c : Char) : Char :=
  match decimalDigit? c with
  | some d => Char.ofNat (48 + d)
  | none => c

/-- The value of a character as a digit, up to the letter z. -/
def digitValue? (c : Char) : Option Nat :=
  if '0' ≤ c ∧ c ≤ '9' then some (c.toNat - 48)
  else if 'a' ≤ c ∧ c ≤ 'z' then some (c.toNat - 87)
  else if 'A' ≤ c ∧ c ≤ 'Z' then some (c.toNat - 55)
  else none

/-- The value of a character as a digit of a base. -/
def digitIn? (base : Nat) (c : Char) : Option Nat :=
  (digitValue? c).filter fun d => decide (d < base)

/-- Reads the rest of a digit sequence behind a digit, with the value so far.  An underscore stands
between two digits. -/
def readMoreDigits (base : Nat) (value : Nat) : List Char → Option Nat
  | [] => some value
  | '_' :: c :: rest => (digitIn? base c).bind fun d => readMoreDigits base (base * value + d) rest
  | c :: rest => (digitIn? base c).bind fun d => readMoreDigits base (base * value + d) rest

/-- Reads a digit sequence, which has at least one digit. -/
def readDigits (base : Nat) : List Char → Option Nat
  | [] => none
  | c :: rest => (digitIn? base c).bind fun d => readMoreDigits base d rest

/-- Reads digits with an optional sign in front of them. -/
def readSigned (readUnsigned : List Char → Option Nat) : List Char → Option Int
  | '-' :: rest => (readUnsigned rest).map fun n => -(n : Int)
  | '+' :: rest => (readUnsigned rest).map Int.ofNat
  | cs => (readUnsigned cs).map Int.ofNat

/-- What follows a hexadecimal mark, with the underscore behind the mark dropped. -/
def dropHexMark : List Char → List Char
  | '0' :: m :: rest =>
    if m = 'x' ∨ m = 'X' then
      match rest with
      | '_' :: rest => rest
      | _ => rest
    else '0' :: m :: rest
  | cs => cs

/-- The value of a hexadecimal numeral. -/
def readHex? (word : List Char) : Option Int :=
  readSigned (fun cs => readDigits 16 (dropHexMark cs)) (word.map plainDigit)

/-- The most digits of a number that is read or written in decimal. -/
def longestDecimal : Nat := 4300

/-- The value of a decimal numeral. -/
def readDecimal? (s : List Char) : Option Int :=
  let trimmed := ((s.dropWhile isPadding).reverse.dropWhile isPadding).reverse
  let digits := trimmed.map plainDigit
  if (digits.filter fun c => (digitIn? 10 c).isSome).length > longestDecimal then none
  else readSigned (readDigits 10) digits

/-- Whether a number can be written in decimal. -/
def hasDecimal (v : Int) : Bool :=
  decide (v.natAbs < Nat.pow 10 longestDecimal)

/-- What stands in for a number that cannot be written in decimal. -/
def tooLongForDecimal : String :=
  "Exceeds the limit (4300 digits) for integer string conversion; " ++
    "use sys.set_int_max_str_digits() to increase the limit"

end Chip8.Text

/-
# Chip8.Program.Text — programs and key lists written as hexadecimal words.

A word list is separated by commas and blanks, and each of its words is a hexadecimal numeral.  As a
program the numbers must fit into sixteen bits, and each becomes two bytes, the high one first.  Words
are taken strictly in order: the first word that is no numeral or does not fit is the one reported.
-/
import Chip8.Text.Numeral
import Chip8.Text.Quoted

namespace Chip8.Program

/-- Why a word list is refused. -/
inductive WordError where
  /-- The word is no hexadecimal numeral. -/
  | notNumeral (word : String)
  /-- The number is negative. -/
  | negative
  /-- The number does not fit into sixteen bits. -/
  | tooBig
  deriving DecidableEq, Repr

namespace WordError

/-- How much of a quoted word an error shows. -/
def shownLength : Nat := 200

/-- The text of a refused word list. -/
def message : WordError → String
  | notNumeral word =>
    "invalid literal for int() with base 16: " ++
      String.ofList ((Text.quoted word).toList.take shownLength)
  | negative => "can't convert negative int to unsigned"
  | tooBig => "int too big to convert"

/-- Whether the word was a numeral with a value out of range. -/
def isOverflow : WordError → Bool
  | notNumeral _ => false
  | _ => true

end WordError

/-- The words of a text. -/
def words (text : String) : List (List Char) :=
  Text.splitWords Text.isSeparator text.toList

/-- The number of a word. -/
def numberOf (word : List Char) : Except WordError Int :=
  match Text.readHex? word with
  | none => .error (.notNumeral (String.ofList word))
  | some v => .ok v

/-- The two bytes of a number, the high one first. -/
def bytesOfNumber (v : Int) : Except WordError (List UInt8) :=
  if v < 0 then .error .negative
  else if 0xFFFF < v then .error .tooBig
  else .ok [UInt8.ofNat (v.toNat / 256), UInt8.ofNat (v.toNat % 256)]

/-- The two bytes of a word. -/
def bytesOf (word : List Char) : Except WordError (List UInt8) :=
  match numberOf word with
  | .error e => .error e
  | .ok v => bytesOfNumber v

/-- Takes the words in order and joins what they come to; the first error ends it. -/
def collect {α : Type} (read : List Char → Except WordError (List α)) :
    List (List Char) → Except WordError (List α)
  | [] => .ok []
  | word :: rest =>
    match read word with
    | .error e => .error e
    | .ok front =>
      match collect read rest with
      | .error e => .error e
      | .ok back => .ok (front ++ back)

/-- The image of a program text. -/
def readImage (text : String) : Except WordError (List UInt8) :=
  collect bytesOf (words text)

/-- The numbers of a key list. -/
def readKeys (text : String) : Except WordError (List Int) :=
  collect (fun word => (numberOf word).map fun v => [v]) (words text)

end Chip8.Program

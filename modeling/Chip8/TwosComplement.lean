/-
# Chip8.TwosComplement — bitwise operations on integers.

An integer stands for its bits in two's complement: endless, with zeros in front of a non-negative
number and ones in front of a negative one.  The bitwise operations work on all bits at once;
`bit_and`, `bit_or` and `bit_xor` say what they do to each.  On two natural numbers they are the
operations on natural numbers.
-/

namespace Chip8.TwosComplement

/-- The bit with number `k`, counted from the least significant one. -/
def bit : Int → Nat → Bool
  | .ofNat m, k => m.testBit k
  | .negSucc m, k => !m.testBit k

/-- The bits of `m` that `n` does not have. -/
def without (m n : Nat) : Nat :=
  m ^^^ (m &&& n)

theorem testBit_without (m n k : Nat) :
    (without m n).testBit k = (m.testBit k && !n.testBit k) := by
  simp only [without, Nat.testBit_xor, Nat.testBit_and]
  cases m.testBit k <;> cases n.testBit k <;> rfl

/-- The bits that both numbers have. -/
def and : Int → Int → Int
  | .ofNat m, .ofNat n => .ofNat (m &&& n)
  | .ofNat m, .negSucc n => .ofNat (without m n)
  | .negSucc m, .ofNat n => .ofNat (without n m)
  | .negSucc m, .negSucc n => .negSucc (m ||| n)

/-- The bits that at least one of two numbers has. -/
def or : Int → Int → Int
  | .ofNat m, .ofNat n => .ofNat (m ||| n)
  | .ofNat m, .negSucc n => .negSucc (without n m)
  | .negSucc m, .ofNat n => .negSucc (without m n)
  | .negSucc m, .negSucc n => .negSucc (m &&& n)

/-- The bits that exactly one of two numbers has. -/
def xor : Int → Int → Int
  | .ofNat m, .ofNat n => .ofNat (m ^^^ n)
  | .ofNat m, .negSucc n => .negSucc (m ^^^ n)
  | .negSucc m, .ofNat n => .negSucc (m ^^^ n)
  | .negSucc m, .negSucc n => .ofNat (m ^^^ n)

/-! ## Bit by bit -/

theorem bit_and (a b : Int) (k : Nat) : bit (and a b) k = (bit a k && bit b k) := by
  cases a with
  | ofNat m =>
    cases b with
    | ofNat n => exact Nat.testBit_and m n k
    | negSucc n => exact testBit_without m n k
  | negSucc m =>
    cases b with
    | ofNat n => simp only [and, bit, testBit_without, Bool.and_comm]
    | negSucc n => simp only [and, bit, Nat.testBit_or, Bool.not_or]

theorem bit_or (a b : Int) (k : Nat) : bit (or a b) k = (bit a k || bit b k) := by
  cases a with
  | ofNat m =>
    cases b with
    | ofNat n => exact Nat.testBit_or m n k
    | negSucc n => simp only [or, bit, testBit_without, Bool.not_and, Bool.not_not, Bool.or_comm]
  | negSucc m =>
    cases b with
    | ofNat n => simp only [or, bit, testBit_without, Bool.not_and, Bool.not_not]
    | negSucc n => simp only [or, bit, Nat.testBit_and, Bool.not_and]

theorem bit_xor (a b : Int) (k : Nat) : bit (xor a b) k = (bit a k ^^ bit b k) := by
  cases a with
  | ofNat m =>
    cases b with
    | ofNat n => exact Nat.testBit_xor m n k
    | negSucc n => simp only [xor, bit, Nat.testBit_xor, Bool.xor_not]
  | negSucc m =>
    cases b with
    | ofNat n => simp only [xor, bit, Nat.testBit_xor, Bool.not_xor]
    | negSucc n => simp only [xor, bit, Nat.testBit_xor, Bool.not_xor_not]

/-! ## Natural numbers -/

theorem and_natCast (m n : Nat) : and m n = (m &&& n : Nat) := rfl

theorem or_natCast (m n : Nat) : or m n = (m ||| n : Nat) := rfl

theorem xor_natCast (m n : Nat) : xor m n = (m ^^^ n : Nat) := rfl

end Chip8.TwosComplement

/-
# Chip8.Position — positions counted from either end of a sequence.

A host may name a place in a sequence by a non-negative position, counted from the front, or by a
negative one, counted from the back: `-1` is the last place.  A position that fits no place is
refused, and one that no 64-bit word can hold is refused for that reason.
-/

namespace Chip8

/-- Why a position names no place. -/
inductive PositionError where
  /-- The position lies outside the sequence. -/
  | outOfRange
  /-- The position does not fit into a 64-bit word. -/
  | tooWide
  deriving DecidableEq, Repr

namespace PositionError

/-- The text of a refused position; `kind` says what kind of sequence was asked. -/
def message (kind : String) : PositionError → String
  | outOfRange => kind ++ " out of range"
  | tooWide => "cannot fit 'int' into an index-sized integer"

end PositionError

namespace Position

/-- The first number beyond the signed 64-bit words. -/
def wordBound : Int := 9223372036854775808

/-- The position can be held by a signed 64-bit word. -/
def IsNarrow (p : Int) : Prop :=
  -wordBound ≤ p ∧ p < wordBound

instance (p : Int) : Decidable (IsNarrow p) :=
  inferInstanceAs (Decidable (_ ∧ _))

/-- The place, counted from the front, that a position names in a sequence of `size` places. -/
def resolve (size : Nat) (p : Int) : Except PositionError (Fin size) :=
  if ¬ IsNarrow p then .error .tooWide
  else
    let place := if p < 0 then p + size else p
    if h : 0 ≤ place ∧ place < size then .ok ⟨place.toNat, by omega⟩
    else .error .outOfRange

theorem resolve_natCast {size i : Nat} (h : i < size) (hs : (size : Int) ≤ wordBound) :
    resolve size i = .ok ⟨i, h⟩ := by
  have hi : IsNarrow (i : Int) := by
    unfold IsNarrow
    unfold wordBound at hs ⊢
    omega
  have hneg : ¬ (i : Int) < 0 := by omega
  have hin : (0 : Int) ≤ i ∧ (i : Int) < size := by omega
  simp [resolve, hi, hneg, hin.2]

end Position

end Chip8

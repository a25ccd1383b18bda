/-
# Chip8.Byte — integers that fit into a byte.

Programs keep their values between 0 and 255 by themselves, but a host may set a value to any integer.
Where bytes are wanted, an integer outside that range is refused.
-/
import Chip8.Position

namespace Chip8

namespace Byte

/-- The integer fits into a byte. -/
def Fits (v : Int) : Prop :=
  0 ≤ v ∧ v ≤ 255

instance (v : Int) : Decidable (Fits v) :=
  inferInstanceAs (Decidable (_ ∧ _))

/-- The byte as an integer. -/
def toInt (b : UInt8) : Int :=
  b.toNat

/-- The byte of an integer. -/
def ofInt? (v : Int) : Option UInt8 :=
  if Fits v then some (UInt8.ofNat v.toNat) else none

/-- The bytes of integers, if all of them fit. -/
def ofInts? : List Int → Option (List UInt8)
  | [] => some []
  | v :: rest =>
    match ofInt? v with
    | none => none
    | some b => (ofInts? rest).map (b :: ·)

theorem fits_toInt (b : UInt8) : Fits (toInt b) := by
  have := b.toNat_lt
  unfold Fits toInt
  omega

theorem ofInt?_toInt (b : UInt8) : ofInt? (toInt b) = some b := by
  have h := fits_toInt b
  unfold toInt at h
  simp [ofInt?, toInt, h]

theorem toInt_of_ofInt? {v : Int} {b : UInt8} (h : ofInt? v = some b) : toInt b = v := by
  unfold ofInt? at h
  split at h
  · next hv =>
    unfold Fits at hv
    obtain rfl := Option.some.inj h
    simp only [toInt, UInt8.toNat_ofNat']
    omega
  · cases h

theorem ofInts?_map_toInt (bs : List UInt8) : ofInts? (bs.map toInt) = some bs := by
  induction bs with
  | nil => rfl
  | cons b rest ih => simp [ofInts?, ofInt?_toInt, ih]

end Byte

/-! ## Bytes put at positions -/

/-- Why a byte is not put at a position. -/
inductive PutError where
  /-- The position names no place. -/
  | position (error : PositionError)
  /-- The value does not fit into a byte. -/
  | notByte
  deriving DecidableEq, Repr

namespace PutError

/-- The text of a byte that is not put. -/
def message : PutError → String
  | position error => error.message "bytearray index"
  | notByte => "byte must be in range(0, 256)"

end PutError

namespace Position

/-- The place and the byte of a value that is put at a position among `size` bytes.  Of two faults the
value is reported, unless the position does not fit into a 64-bit word. -/
def resolvePut (size : Nat) (p v : Int) : Except PutError (Fin size × UInt8) :=
  match resolve size p, Byte.ofInt? v with
  | .ok i, some b => .ok (i, b)
  | .error .tooWide, _ => .error (.position .tooWide)
  | _, none => .error .notByte
  | .error e, _ => .error (.position e)

end Position

end Chip8

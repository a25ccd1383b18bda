/-
# Chip8.Random.ByteSource — where random bytes come from.

A source hands out one byte at a time and remembers where it is.  It is either a list of bytes that is
replayed for ever, or a seeded generator.  Seen from outside a source is the stream of the bytes it
will hand out; `ByteSource.stream` is that view.
-/
import Chip8.Random.Twister

namespace Chip8

/-- A source of random bytes. -/
inductive ByteSource where
  /-- Replays the bytes in a circle; the next one stands at the given place.  Without any bytes it
  hands out zeros. -/
  | circle (bytes : Array UInt8) (place : Nat)
  /-- Draws from a generator. -/
  | generator (state : Random.Twister)
  deriving DecidableEq

namespace ByteSource

/-- Replays a list from its first byte. -/
def ofList (bytes : List UInt8) : ByteSource :=
  circle bytes.toArray 0

/-- The generator of a seed. -/
def ofSeed (seed : Int) : ByteSource :=
  generator (.ofSeed seed)

/-- The next byte, and the source behind it. -/
def next : ByteSource → UInt8 × ByteSource
  | circle bytes place =>
    (bytes.getD place 0, circle bytes (if place + 1 < bytes.size then place + 1 else 0))
  | generator state =>
    let (b, state) := state.nextByte
    (b, generator state)

/-- The source behind the next `n` bytes. -/
def drop : Nat → ByteSource → ByteSource
  | 0, s => s
  | n + 1, s => drop n s.next.2

/-- The byte with number `k`, counted from zero, that the source will hand out. -/
def stream (s : ByteSource) (k : Nat) : UInt8 :=
  (s.drop k).next.1

theorem drop_add (m n : Nat) (s : ByteSource) : s.drop (m + n) = (s.drop m).drop n := by
  induction m generalizing s with
  | zero => simp [drop]
  | succ m ih => simp [Nat.succ_add, drop, ih]

theorem drop_circle {bytes : Array UInt8} {place k : Nat} (h : place + k < bytes.size) :
    (circle bytes place).drop k = circle bytes (place + k) := by
  induction k generalizing place with
  | zero => rfl
  | succ k ih =>
    have hnext : (circle bytes place).next.2 = circle bytes (place + 1) := by
      simp only [next]
      rw [if_pos (by omega)]
    rw [drop, hnext, ih (by omega)]
    congr 1
    omega

/-- Whatever bytes a source is to hand out first, there is a source that does. -/
theorem stream_ofList {bytes : List UInt8} {k : Nat} (h : k < bytes.length) :
    (ofList bytes).stream k = bytes[k] := by
  rw [stream, ofList, drop_circle (by simpa using h)]
  simp [next, h]

end ByteSource

end Chip8

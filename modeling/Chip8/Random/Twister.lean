/-
# Chip8.Random.Twister — the generator MT19937 and its seeding by a number.

The generator keeps 624 words of 32 bits.  They are all renewed at once, each from itself, its
successor and the word 397 places on; a word is tempered by shifts and masks before it is handed out.
The seed is a natural number of any size: its 32-bit digits, least significant first, are stirred into
a fixed starting state, and zero counts as the one digit zero.
-/

namespace Chip8.Random

/-- The words of the generator. -/
abbrev Words := Array UInt32

/-- How many words the generator keeps. -/
def wordCount : Nat := 624

/-- The state of the generator: its words, and which of them is handed out next. -/
structure Twister where
  /-- The current words. -/
  words : Words
  /-- The place of the next word; `wordCount` when all are used up. -/
  place : Nat
  deriving DecidableEq

namespace Twister

/-! ## Seeding -/

/-- The low bits of a word spread by its two highest bits. -/
def spread (w : UInt32) : UInt32 :=
  w ^^^ (w >>> 30)

/-- The word at a place. -/
def wordAt (ws : Words) (i : Nat) : UInt32 :=
  ws.getD i 0

/-- Extends a start by `n` words, each from the one before it. -/
def grow : Nat → Words → Words
  | 0, ws => ws
  | n + 1, ws =>
    let last := wordAt ws (ws.size - 1)
    grow n (ws.push (1812433253 * spread last + UInt32.ofNat ws.size))

/-- The words that grow from one word. -/
def ofWord (w : UInt32) : Words :=
  grow (wordCount - 1) #[w]

/-- The step from one place to the next; after the last place the last word is copied to the front and
the second place follows. -/
def wrap (ws : Words) (i : Nat) : Words × Nat :=
  if i + 1 ≥ wordCount then (ws.setIfInBounds 0 (wordAt ws (wordCount - 1)), 1) else (ws, i + 1)

/-- Stirs `n` digits of the key into the words, from place `i` and digit `j` on. -/
def stirKey (key : Words) : Nat → Words → Nat → Nat → Words × Nat
  | 0, ws, i, _ => (ws, i)
  | n + 1, ws, i, j =>
    let w := (wordAt ws i ^^^ (spread (wordAt ws (i - 1)) * 1664525)) +
      wordAt key j + UInt32.ofNat j
    let (ws, i) := wrap (ws.setIfInBounds i w) i
    stirKey key n ws i (if j + 1 ≥ key.size then 0 else j + 1)

/-- Stirs `n` words by their places, from place `i` on. -/
def stirPlaces : Nat → Words → Nat → Words
  | 0, ws, _ => ws
  | n + 1, ws, i =>
    let w := (wordAt ws i ^^^ (spread (wordAt ws (i - 1)) * 1566083941)) - UInt32.ofNat i
    let (ws, i) := wrap (ws.setIfInBounds i w) i
    stirPlaces n ws i

/-- The generator that starts from a key of 32-bit digits. -/
def ofKey (key : Words) : Twister :=
  let (ws, i) := stirKey key (max wordCount key.size) (ofWord 19650218) 1 0
  let ws := stirPlaces (wordCount - 1) ws i
  ⟨ws.setIfInBounds 0 0x80000000, wordCount⟩

/-- The 32-bit digits of a number, least significant first; zero has one digit. -/
def digits (n : Nat) : List UInt32 :=
  if n < 4294967296 then [UInt32.ofNat n]
  else UInt32.ofNat (n % 4294967296) :: digits (n / 4294967296)
termination_by n

/-- The generator of a seed.  The sign of the seed does not matter. -/
def ofSeed (seed : Int) : Twister :=
  ofKey (digits seed.natAbs).toArray

/-! ## Drawing -/

/-- Renews the word at one place from itself, its successor and the word 397 places on. -/
def renewAt (ws : Words) (i : Nat) : Words :=
  let joined := (wordAt ws i &&& 0x80000000) ||| (wordAt ws ((i + 1) % wordCount) &&& 0x7FFFFFFF)
  let twist : UInt32 := if joined &&& 1 = 0 then 0 else 0x9908B0DF
  ws.setIfInBounds i (wordAt ws ((i + 397) % wordCount) ^^^ (joined >>> 1) ^^^ twist)

/-- Renews all words in order. -/
def renew (ws : Words) : Words :=
  (List.range wordCount).foldl renewAt ws

/-- Mixes the bits of a word before it is handed out. -/
def temper (w : UInt32) : UInt32 :=
  let w := w ^^^ (w >>> 11)
  let w := w ^^^ ((w <<< 7) &&& 0x9D2C5680)
  let w := w ^^^ ((w <<< 15) &&& 0xEFC60000)
  w ^^^ (w >>> 18)

/-- The next 32-bit word. -/
def nextWord (t : Twister) : UInt32 × Twister :=
  if t.place < wordCount then (temper (wordAt t.words t.place), ⟨t.words, t.place + 1⟩)
  else
    let ws := renew t.words
    (temper (wordAt ws 0), ⟨ws, 1⟩)

/-- Draws words until the leading nine bits of one are below 256, at most `n` words. -/
def nextByteWithin : Nat → Twister → UInt8 × Twister
  | 0, t => (0, t)
  | n + 1, t =>
    let (w, t) := t.nextWord
    let v := w >>> 23
    if v < 256 then (UInt8.ofNat v.toNat, t) else nextByteWithin n t

/-- More words than can be rejected in a row: a word is rejected when its leading bit is set, and no
run of set leading bits is longer than the 19937 bits of the state. -/
def longestDraw : Nat := 19938

/-- The next byte. -/
def nextByte (t : Twister) : UInt8 × Twister :=
  nextByteWithin longestDraw t

end Twister

end Chip8.Random

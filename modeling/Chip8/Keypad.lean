/-
# Chip8.Keypad — the sixteen keys and where they lie on a keyboard.

The keypad is a latch: the host writes which keys are down, and programs only look.  A host names keys
by integers, of which `0` to `15` are keys.  On a keyboard the keypad takes the left block of four by
four characters:

    1 2 3 4        1 2 3 C
    q w e r   is   4 5 6 D
    a s d f        7 8 9 E
    z x c v        A 0 B F
-/

namespace Chip8

/-- One of the sixteen keys. -/
abbrev Key := Fin 16

namespace Key

/-- The key of an integer. -/
def ofInt? (k : Int) : Option Key :=
  if h : 0 ≤ k ∧ k < 16 then some ⟨k.toNat, by omega⟩ else none

/-- All keys in ascending order. -/
def all : List Key := List.finRange 16

/-- The keyboard characters in the order of their rows, each with its key. -/
def layout : List (Char × Key) :=
  [('1', 0x1), ('2', 0x2), ('3', 0x3), ('4', 0xC),
   ('q', 0x4), ('w', 0x5), ('e', 0x6), ('r', 0xD),
   ('a', 0x7), ('s', 0x8), ('d', 0x9), ('f', 0xE),
   ('z', 0xA), ('x', 0x0), ('c', 0xB), ('v', 0xF)]

/-- The key of a text that is one keyboard character, capital or small.  No character outside ASCII
has one of the layout's characters as its small form, so the ASCII forms are enough. -/
def ofText? (s : String) : Option Key :=
  match s.toList with
  | [c] => layout.lookup c.toLower
  | _ => none

theorem ofInt?_natCast (k : Key) : ofInt? k.val = some k := by
  have h : (0 : Int) ≤ (k.val : Int) ∧ (k.val : Int) < 16 := by omega
  simp [ofInt?, h.2]

end Key

/-- Which keys are down. -/
structure Keypad where
  /-- One entry per key. -/
  down : Vector Bool 16
  deriving DecidableEq

namespace Keypad

/-- No key is down. -/
def released : Keypad :=
  ⟨Vector.replicate 16 false⟩

/-- Whether a key is down. -/
def isDown (p : Keypad) (k : Key) : Bool :=
  p.down[k]

/-- Puts a key down or lifts it. -/
def setKey (p : Keypad) (k : Key) (isDown : Bool) : Keypad :=
  ⟨p.down.set k isDown⟩

/-- Exactly the given keys are down. -/
def ofPressed (ks : List Key) : Keypad :=
  ⟨Vector.ofFn fun k => ks.contains k⟩

/-- The keys that are down, in ascending order. -/
def pressed (p : Keypad) : List Key :=
  Key.all.filter p.isDown

/-- The lowest key that is down. -/
def lowest? (p : Keypad) : Option Key :=
  Key.all.find? p.isDown

/-- One entry per key, in ascending order. -/
def toList (p : Keypad) : List Bool :=
  p.down.toList

theorem isDown_setKey (p : Keypad) (k j : Key) (b : Bool) :
    (p.setKey k b).isDown j = if k = j then b else p.isDown j := by
  simp [isDown, setKey, Vector.getElem_set, Fin.ext_iff]

theorem isDown_ofPressed (ks : List Key) (k : Key) :
    (ofPressed ks).isDown k = ks.contains k := by
  simp [isDown, ofPressed]

end Keypad

end Chip8

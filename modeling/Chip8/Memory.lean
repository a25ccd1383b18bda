/-
# Chip8.Memory — the 4096-byte address space and its windows.

Memory is read and written in windows, given by an address and a length.  An address is any integer:
programs and hosts may point anywhere, and a window that does not lie inside memory is refused with
the window that was asked for.  A refused access changes nothing, and a write never changes the size.

Lengths are also plain integers for the host's sake.  A window whose end falls below zero has its end
counted from the end of memory; for the windows that programs can ask for, whose length is never
negative, this case does not arise.
-/

namespace Chip8

/-- The number of bytes in the address space. -/
def memorySize : Nat := 4096

/-- The contents of the address space. -/
structure Memory where
  /-- One byte per address. -/
  bytes : Vector UInt8 memorySize
  deriving DecidableEq

/-- A window that does not lie inside memory. -/
structure OutOfBounds where
  /-- The first address asked for. -/
  address : Int
  /-- How many bytes were asked for. -/
  count : Int
  deriving DecidableEq, Repr

namespace Memory

/-- Memory full of zeros. -/
def zeros : Memory :=
  ⟨Vector.replicate memorySize 0⟩

/-- The byte at an address; zero outside memory. -/
def byteAt (m : Memory) (a : Nat) : UInt8 :=
  m.bytes.toArray.getD a 0

/-- Replaces the byte at an address; an address outside memory is ignored. -/
def setByte (m : Memory) (a : Nat) (b : UInt8) : Memory :=
  ⟨m.bytes.setIfInBounds a b⟩

/-- The bytes from `start` up to, but not including, `stop`. -/
def slice (m : Memory) (start stop : Nat) : List UInt8 :=
  (m.bytes.toArray.extract start stop).toList

/-- Puts consecutive bytes from an address on. -/
def put (m : Memory) (a : Nat) : List UInt8 → Memory
  | [] => m
  | b :: rest => (m.setByte a b).put (a + 1) rest

/-- The window of `count` bytes at `address` is refused. -/
def Refuses (address count : Int) : Prop :=
  address < 0 ∨ address + count > memorySize

instance (address count : Int) : Decidable (Refuses address count) :=
  inferInstanceAs (Decidable (_ ∨ _))

/-- Where a window ends: an end below zero counts from the end of memory. -/
def windowEnd (address count : Int) : Nat :=
  if address + count < 0 then (memorySize + (address + count)).toNat else (address + count).toNat

/-- Lets a window pass unless it is refused. -/
def check (address count : Int) : Except OutOfBounds Unit :=
  if Refuses address count then .error ⟨address, count⟩ else .ok ()

/-- Reads a window. -/
def read (m : Memory) (address count : Int) : Except OutOfBounds (List UInt8) :=
  (check address count).map fun _ => m.slice address.toNat (windowEnd address count)

/-- All bytes in address order. -/
def toList (m : Memory) : List UInt8 :=
  m.bytes.toList

/-! ## Small laws -/

theorem byteAt_setByte (m : Memory) (a b : Nat) (v : UInt8) (h : a < memorySize) :
    (m.setByte a v).byteAt b = if a = b then v else m.byteAt b := by
  simp only [byteAt, setByte, Vector.toArray_setIfInBounds, Array.getD_eq_getD_getElem?,
    Array.getElem?_setIfInBounds, Vector.size_toArray]
  split <;> simp_all

theorem check_of_refuses {address count : Int} (h : Refuses address count) :
    check address count = .error ⟨address, count⟩ :=
  if_pos h

theorem check_of_not_refuses {address count : Int} (h : ¬ Refuses address count) :
    check address count = .ok () :=
  if_neg h

end Memory

end Chip8

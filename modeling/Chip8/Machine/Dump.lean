/-
# Chip8.Machine.Dump — state as plain data, and what makes it sound.

A dump lists the components of a machine as plain lists and integers, so that it can have a form that no
machine has: too much memory, too few registers, no cells.  `Dump.isSound` says whether a dump has the
form of a machine, an undamaged font, and values in the ranges that instructions keep them in.
-/
import Chip8.Machine.Snapshot
import Chip8.Text.Quoted

namespace Chip8

/-- The components of a state as plain data. -/
structure Dump where
  /-- Memory bytes by address. -/
  memory : List UInt8
  /-- Register values. -/
  registers : List Int
  /-- The index register. -/
  index : Int
  /-- The program counter. -/
  pc : Int
  /-- Return addresses, the latest last. -/
  stack : List Int
  /-- The delay timer. -/
  delayTimer : Int
  /-- Screen cells, row after row, zero for off. -/
  cells : List UInt8
  /-- One entry per key. -/
  keys : List Bool
  /-- The run state. -/
  runState : RunState
  /-- A key wait is in progress. -/
  awaitingKey : Bool
  /-- The candidate of the key wait. -/
  pendingKey : Option Int
  deriving DecidableEq

/-- Why a change to a dump is refused. -/
inductive DumpError where
  /-- A byte is not put into memory. -/
  | put (error : PutError)
  /-- No run state has this name. -/
  | noSuchRunState (name : String)
  deriving DecidableEq, Repr

namespace DumpError

/-- The text of a refused change. -/
def message : DumpError → String
  | put error => error.message
  | noSuchRunState name => Text.quoted name ++ " is not a valid RunState"

end DumpError

namespace Dump

/-- The value fits into a byte. -/
def isByte (v : Int) : Bool :=
  decide (Byte.Fits v)

/-- The value fits into sixteen bits. -/
def isWord (v : Int) : Bool :=
  decide (0 ≤ v) && decide (v ≤ 0xFFFF)

/-- The font stands undamaged at its place. -/
def hasFont (d : Dump) : Bool :=
  (d.memory.drop Font.start).take Font.bytes.length == Font.bytes

/-- A candidate key exists, and there is one only during a key wait. -/
def hasSoundWait (d : Dump) : Bool :=
  match d.pendingKey with
  | none => true
  | some k => decide (0 ≤ k) && decide (k < 16) && d.awaitingKey

/-- The dump has the form of a machine, its values are in range, and its font is undamaged. -/
def isSound (d : Dump) : Bool :=
  d.memory.length == memorySize && d.hasFont &&
  d.registers.length == 16 && d.registers.all isByte &&
  isWord d.index && isWord d.pc &&
  decide (d.stack.length ≤ stackCapacity) && isByte d.delayTimer &&
  d.cells.length == screenSize && d.keys.length == 16 && d.hasSoundWait

/-- The registers under their names. -/
def namedRegisters (d : Dump) : List (String × Int) :=
  nameRegisters d.registers

/-- The one-line text of a dump. -/
def text (d : Dump) : String :=
  statusLine d.pc d.index d.delayTimer d.stack.length d.registers d.runState

/-! ## Changing a dump by hand -/

/-- Replaces the byte at a position of memory by a value, which has to fit into a byte. -/
def poke (d : Dump) (p v : Int) : Except DumpError Dump :=
  match Position.resolvePut d.memory.length p v with
  | .error e => .error (.put e)
  | .ok (i, b) => .ok { d with memory := d.memory.set i.val b }

/-- Sets the run state to the one of a name. -/
def nameRunState (d : Dump) (name : String) : Except DumpError Dump :=
  match RunState.ofName? name with
  | none => .error (.noSuchRunState name)
  | some runState => .ok { d with runState }

end Dump

namespace Machine

/-- The components of a machine as plain data. -/
def dump (m : Machine) : Dump where
  memory := m.memory.toList
  registers := m.registers.toList
  index := m.index
  pc := m.pc
  stack := m.stack.reverse
  delayTimer := m.delayTimer
  cells := m.screen.toList
  keys := m.keypad.toList
  runState := m.runState
  awaitingKey := m.awaitingKey
  pendingKey := m.pendingKey

/-- The values of the machine are in range and its font is undamaged. -/
def isSound (m : Machine) : Bool :=
  m.dump.isSound

end Machine

end Chip8

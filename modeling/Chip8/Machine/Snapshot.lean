/-
# Chip8.Machine.Snapshot — the part of the state that a trace keeps, and its one-line text.

A snapshot leaves out memory, screen and keys.  Its stack is listed with the latest return address
last, as reports show it.
-/
import Chip8.Machine

namespace Chip8

/-- The state of the registers, the stack and the timer at one moment. -/
structure Snapshot where
  /-- The registers `V0` to `VF`. -/
  registers : Vector Int 16
  /-- The index register. -/
  index : Int
  /-- The program counter. -/
  pc : Int
  /-- Return addresses, the latest last. -/
  stack : List Int
  /-- The delay timer. -/
  delayTimer : Int
  /-- The run state. -/
  runState : RunState
  deriving DecidableEq

namespace Machine

/-- The snapshot of a machine. -/
def snapshot (m : Machine) : Snapshot where
  registers := m.registers
  index := m.index
  pc := m.pc
  stack := m.stack.reverse
  delayTimer := m.delayTimer
  runState := m.runState

end Machine

/-! ## Texts -/

/-- The name of the register with a number. -/
def registerName (r : Nat) : String :=
  "V" ++ Text.hex 1 r

/-- Values under the names of the registers they stand in. -/
def nameRegisters (values : List Int) : List (String × Int) :=
  values.zipIdx.map fun p => (registerName p.2, p.1)

/-- The one-line text of a state. -/
def statusLine (pc index delayTimer : Int) (depth : Nat) (registers : List Int)
    (runState : RunState) : String :=
  let columns := (nameRegisters registers).map fun p => p.1 ++ "=" ++ Text.hex 2 p.2
  "PC=" ++ Text.hex 3 pc ++ " I=" ++ Text.hex 3 index ++ " DT=" ++ toString delayTimer ++
    " SP=" ++ toString depth ++ " " ++ " ".intercalate columns ++ " " ++ runState.capitals

namespace Machine

/-- The registers under their names. -/
def namedRegisters (m : Machine) : List (String × Int) :=
  nameRegisters m.registers.toList

/-- The one-line text of a machine. -/
def text (m : Machine) : String :=
  statusLine m.pc m.index m.delayTimer m.stack.length m.registers.toList m.runState

end Machine

end Chip8

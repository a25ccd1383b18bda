/-
# Chip8.Machine — the state of the machine and the moves its parts allow.

The machine has memory, sixteen registers, an index register, a program counter, a call stack of return
addresses, a delay timer, a screen, a keypad, a run state, and two fields for the instruction that waits
for a key.  The register `VF` doubles as the flag register.

Registers, the delay timer, the index register, the program counter, return addresses and the candidate
key are integers, because a host may set them to anything.  Instructions keep registers and timer within
a byte and the addresses within sixteen bits by themselves.  The parts that cannot leave their range have
types that say so.

A fresh machine has the font at the bottom of memory and a program image from `programStart` on.

A move that can fail hands over a machine in either case: as it has been changed, or as it is where the
move goes no further.
-/
import Chip8.Fault
import Chip8.Font
import Chip8.Instruction
import Chip8.Keypad
import Chip8.Screen

namespace Chip8

/-- Whether the machine executes instructions. -/
inductive RunState where
  | running
  | paused
  | halted
  deriving DecidableEq, Repr, Inhabited

namespace RunState

/-- The name of a run state. -/
def name : RunState → String
  | running => "running"
  | paused => "paused"
  | halted => "halted"

/-- The name of a run state in capitals. -/
def capitals : RunState → String
  | running => "RUNNING"
  | paused => "PAUSED"
  | halted => "HALTED"

/-- The run state of a name. -/
def ofName? (s : String) : Option RunState :=
  [running, paused, halted].find? fun r => r.name == s

theorem ofName?_name (r : RunState) : ofName? r.name = some r := by
  cases r <;> decide

end RunState

/-- The number of a register. -/
abbrev Register := Fin 16

/-- The first register, `V0`. -/
def firstRegister : Register := ⟨0, by decide⟩

/-- The flag register, `VF`. -/
def flagRegister : Register := ⟨15, by decide⟩

/-- Where programs are loaded and start. -/
def programStart : Nat := 0x200

/-- The longest image that fits above `programStart`. -/
def maxImageSize : Nat := memorySize - programStart

/-- The state of the machine. -/
structure Machine where
  /-- The address space. -/
  memory : Memory
  /-- The registers `V0` to `VF`. -/
  registers : Vector Int 16
  /-- The index register. -/
  index : Int
  /-- The address of the next instruction. -/
  pc : Int
  /-- Return addresses, the latest first. -/
  stack : List Int
  /-- Counts down to zero with the ticks of the host. -/
  delayTimer : Int
  /-- The screen. -/
  screen : Screen
  /-- Which keys are down. -/
  keypad : Keypad
  /-- Whether instructions are executed. -/
  runState : RunState
  /-- An instruction that waits for a key is in progress. -/
  awaitingKey : Bool
  /-- The key that was pressed during the wait and has to be released. -/
  pendingKey : Option Int
  deriving DecidableEq

namespace Machine

/-! ## A fresh machine -/

/-- Nothing but zeros, with the program counter at the program start. -/
def blank : Machine where
  memory := .zeros
  registers := Vector.replicate 16 0
  index := 0
  pc := programStart
  stack := []
  delayTimer := 0
  screen := .dark
  keypad := .released
  runState := .running
  awaitingKey := false
  pendingKey := none

/-- A fresh machine with the font and a program image; `none` when the image does not fit. -/
def boot? (image : List UInt8) : Option Machine :=
  if image.length > maxImageSize then none
  else some { blank with
    memory := (Memory.zeros.put Font.start Font.bytes).put programStart image }

/-- A fresh machine without a program. -/
def empty : Machine :=
  { blank with memory := Memory.zeros.put Font.start Font.bytes }

theorem boot?_nil : boot? [] = some empty := by
  simp [boot?, empty, Memory.put]

/-! ## Registers, memory and stack -/

/-- The value of a register. -/
def register (m : Machine) (r : Register) : Int :=
  m.registers[r]

/-- Sets one register. -/
def setRegister (m : Machine) (r : Register) (v : Int) : Machine :=
  { m with registers := m.registers.set r v }

/-- Sets the flag register. -/
def setFlag (m : Machine) (on : Bool) : Machine :=
  m.setRegister flagRegister (if on then 1 else 0)

/-- The values of the first `count` registers. -/
def firstRegisters (m : Machine) (count : Nat) : List Int :=
  m.registers.toList.take count

/-- Sets registers from `V0` on to the given values; values without a register are dropped. -/
def setFirstRegisters (m : Machine) (values : List Int) : Machine :=
  { m with registers := Vector.ofFn fun r : Register => values.getD r (m.register r) }

/-- Reads a memory window. -/
def read (m : Machine) (address count : Int) : Except Cause (List UInt8) :=
  (m.memory.read address count).mapError .outOfBounds

/-- Writes a memory window. -/
def write (m : Machine) (address : Int) (data : List UInt8) :
    Except (Stopped Machine Cause) Machine :=
  match Memory.check address data.length with
  | .error window => .error ⟨m, .outOfBounds window⟩
  | .ok () => .ok { m with memory := m.memory.put address.toNat data }

/-- Pushes a return address. -/
def push (m : Machine) (address : Int) : Except (Stopped Machine Cause) Machine :=
  if m.stack.length ≥ stackCapacity then .error ⟨m, .stackOverflow⟩
  else .ok { m with stack := address :: m.stack }

/-- Pops the latest return address. -/
def pop (m : Machine) : Except (Stopped Machine Cause) (Int × Machine) :=
  match m.stack with
  | [] => .error ⟨m, .stackUnderflow⟩
  | address :: stack => .ok (address, { m with stack })

/-! ## Timer, screen and fetch -/

/-- One tick: the delay timer goes down by one and stops at zero. -/
def tick (m : Machine) : Machine :=
  if 0 < m.delayTimer then { m with delayTimer := m.delayTimer - 1 } else m

/-- Switches all cells off. -/
def clearScreen (m : Machine) : Machine :=
  { m with screen := .dark }

/-- Adds to the program counter, within sixteen bits. -/
def advance (m : Machine) (offset : Int) : Machine :=
  { m with pc := (m.pc + offset) % 65536 }

/-- Reads the instruction at the program counter and moves the counter past it. -/
def fetch (m : Machine) : Except (Stopped Machine Cause) (Instruction × Machine) :=
  match m.read m.pc 2 with
  | .error cause => .error ⟨m, cause⟩
  | .ok bytes => .ok (.ofBytes (bytes.getD 0 0) (bytes.getD 1 0), m.advance 2)

/-! ## Small laws -/

theorem register_setRegister (m : Machine) (r q : Register) (v : Int) :
    (m.setRegister r v).register q = if r = q then v else m.register q := by
  simp [register, setRegister, Vector.getElem_set, Fin.ext_iff]

theorem register_setFlag (m : Machine) (on : Bool) (q : Register) :
    (m.setFlag on).register q =
      if flagRegister = q then if on then 1 else 0 else m.register q :=
  m.register_setRegister flagRegister q _

theorem stack_push {m n : Machine} {a : Int} (h : m.push a = .ok n) : n.stack = a :: m.stack := by
  unfold push at h
  split at h
  · cases h
  · cases h
    rfl

end Machine

end Chip8

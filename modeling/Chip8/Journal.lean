/-
# Chip8.Journal — what happens in a session, as leveled entries.

An event is something that a part of the program reports.  Each event has a level of urgency, the part
that reports it, and a text.  A journal keeps the events from a threshold on; without a threshold it
keeps none.
-/
import Chip8.Fault
import Chip8.Machine

namespace Chip8

/-- How urgent an event is. -/
inductive Level where
  | debug
  | info
  | warning
  | error
  deriving DecidableEq, Repr, Inhabited

namespace Level

/-- The levels in ascending order. -/
def all : List Level := [debug, info, warning, error]

/-- The name of a level. -/
def name : Level → String
  | debug => "DEBUG"
  | info => "INFO"
  | warning => "WARNING"
  | error => "ERROR"

/-- The level of a name. -/
def ofName? (s : String) : Option Level :=
  all.find? fun l => l.name == s

/-- The place of a level in the order of urgency. -/
def rank : Level → Nat
  | debug => 0
  | info => 1
  | warning => 2
  | error => 3

theorem ofName?_name (l : Level) : ofName? l.name = some l := by
  cases l <;> decide

end Level

/-- The parts of the program that report events. -/
inductive Reporter where
  /-- The set-up of machines. -/
  | machine
  /-- The session that drives a machine. -/
  | session
  /-- The primitives. -/
  | primitive
  deriving DecidableEq, Repr, Inhabited

namespace Reporter

/-- The name under which a part reports. -/
def name : Reporter → String
  | machine => "chip8_vm.state"
  | session => "chip8_vm.cpu"
  | primitive => "chip8_vm.registry"

end Reporter

/-- Something that is reported. -/
inductive Event where
  /-- A machine was set up with an image of this size. -/
  | imagePlaced (size : Nat)
  /-- A session began a program of this size. -/
  | programLoaded (size : Nat)
  /-- An instruction fetched from `pc` is about to be executed. -/
  | executing (pc : Int) (instruction : Instruction)
  /-- The word fetched from `pc` is outside the instruction set. -/
  | unrecognized (pc : Int) (instruction : Instruction)
  /-- The instruction at `pc` failed. -/
  | faulted (pc : Int) (text : String)
  /-- The machine was paused. -/
  | paused (pc : Int)
  /-- The machine was resumed. -/
  | resumed (pc : Int)
  /-- The machine was halted. -/
  | halted (pc : Int)
  /-- A subroutine returned to an address, leaving this many calls open. -/
  | returned (address : Int) (depth : Nat)
  /-- A subroutine was called, making this many open calls. -/
  | called (address : Nat) (depth : Nat)
  /-- A wait for a key into a register began. -/
  | waitBegan (r : Register)
  /-- The key of a wait was released and stored in a register. -/
  | keyStored (k : Int) (r : Register)
  deriving DecidableEq

namespace Event

/-- How urgent an event is. -/
def level : Event → Level
  | imagePlaced _ | executing .. | returned .. | called .. | waitBegan _ | keyStored .. => .debug
  | programLoaded _ | paused _ | resumed _ | halted _ => .info
  | unrecognized .. => .warning
  | faulted .. => .error

/-- Which part reports an event. -/
def reporter : Event → Reporter
  | imagePlaced _ => .machine
  | returned .. | called .. | waitBegan _ | keyStored .. => .primitive
  | _ => .session

/-- The text of an event. -/
def text : Event → String
  | imagePlaced size =>
    "Loaded " ++ toString size ++ " byte image at 0x" ++ Text.hex 3 programStart
  | programLoaded size => "Loaded program (" ++ toString size ++ " bytes)"
  | executing pc i => Text.hex 3 pc ++ ": " ++ i.text
  | unrecognized pc i =>
    "Unrecognized opcode " ++ Text.hex 4 i.word.toNat ++ " at " ++ Text.hex 3 pc
  | faulted pc text => "Fault at " ++ Text.hex 3 pc ++ ": " ++ text
  | paused pc => "Paused at " ++ Text.hex 3 pc
  | resumed pc => "Resumed at " ++ Text.hex 3 pc
  | halted pc => "Halted at " ++ Text.hex 3 pc
  | returned address depth =>
    "RET to " ++ Text.hex 3 address ++ " (depth " ++ toString depth ++ ")"
  | called address depth =>
    "CALL " ++ Text.hex 3 address ++ " (depth " ++ toString depth ++ ")"
  | waitBegan r => "Waiting for key into V" ++ Text.hex 1 r.val
  | keyStored k r => "Key " ++ Text.hex 1 k ++ " released, stored in V" ++ Text.hex 1 r.val

/-- What an executed instruction reports, judged by the machine before and after it. -/
def ofExecution (i : Instruction) (before after : Machine) : List Event :=
  match i.op with
  | .ret => [returned after.pc after.stack.length]
  | .call => [called i.address after.stack.length]
  | .awaitKey =>
    if !before.awaitingKey then [waitBegan i.x]
    else if after.awaitingKey then []
    else (before.pendingKey.map fun k => keyStored k i.x).toList
  | _ => []

end Event

/-- The events from a threshold on, in order. -/
structure Journal where
  /-- The least level that is kept; `none` keeps nothing. -/
  threshold : Option Level
  /-- The kept events. -/
  events : Array Event
  deriving DecidableEq

namespace Journal

/-- Nothing has happened yet. -/
def start (threshold : Option Level) : Journal :=
  ⟨threshold, #[]⟩

/-- Whether events of a level are kept. -/
def keeps (j : Journal) (l : Level) : Bool :=
  match j.threshold with
  | none => false
  | some t => decide (t.rank ≤ l.rank)

/-- Reports one event. -/
def note (j : Journal) (e : Event) : Journal :=
  if j.keeps e.level then { j with events := j.events.push e } else j

/-- Reports events in order. -/
def noteAll (j : Journal) (es : List Event) : Journal :=
  es.foldl note j

end Journal

end Chip8

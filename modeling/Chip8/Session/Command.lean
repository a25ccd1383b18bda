/-
# Chip8.Session.Command — the calls on a session as data.

Every call that can change a session or fail is a command, so that histories of a session are lists of
commands.  `Session.perform` carries one out; `Session.performAll` carries out a list and goes on after
failures, as a host does that catches them.
-/
import Chip8.Session.Host
import Chip8.Session.Run

namespace Chip8

/-- A call on a session. -/
inductive Command where
  | load (image : List UInt8)
  | loadFile (path : String) (file : HostFile)
  | step
  | run (cycles : Option Int)
  | runFrame
  | fetch
  | tick
  | pause
  | resume
  | togglePause
  | halt
  | pressKey (key : Int)
  | releaseKey (key : Int)
  | setKeys (keys : List Int)
  | execute (instruction : Instruction)
  | read (address count : Int)
  | write (address : Int) (data : List UInt8)
  | push (address : Int)
  | pop
  | clearScreen
  | setFlag (value : Int)
  deriving DecidableEq

/-- What a call answers. -/
inductive Answer where
  /-- Nothing. -/
  | done
  /-- The instruction of a cycle. -/
  | stepped (instruction : Instruction)
  /-- The instruction of a fetch. -/
  | fetched (instruction : Instruction)
  /-- How many cycles were executed. -/
  | cycles (n : Nat)
  /-- The bytes of a window. -/
  | bytes (data : List UInt8)
  /-- An address. -/
  | address (a : Int)
  deriving DecidableEq

namespace Reply

/-- The same reply with its result changed. -/
def map {α β : Type} (f : α → β) (r : Reply α) : Reply β :=
  ⟨r.session, r.result.map f⟩

end Reply

namespace Session

/-- Carries out a command; `patience` bounds runs that have no bound of their own. -/
def perform (patience : Nat) (s : Session) : Command → Reply Answer
  | .load image => (s.load image).map fun _ => .done
  | .loadFile path file => (s.loadFile path file).map fun _ => .done
  | .step => s.step.map .stepped
  | .run cycles => (s.run patience cycles).map .cycles
  | .runFrame => s.runFrame.map .cycles
  | .fetch => s.fetch.map .fetched
  | .tick => ⟨s.tick, .ok .done⟩
  | .pause => ⟨s.pause, .ok .done⟩
  | .resume => ⟨s.resume, .ok .done⟩
  | .togglePause => ⟨s.togglePause, .ok .done⟩
  | .halt => ⟨s.halt, .ok .done⟩
  | .pressKey key => (s.pressKey key).map fun _ => .done
  | .releaseKey key => (s.releaseKey key).map fun _ => .done
  | .setKeys keys => (s.setKeys keys).map fun _ => .done
  | .execute i => (s.execute i).map fun _ => .done
  | .read address count => (s.read address count).map .bytes
  | .write address data => (s.write address data).map fun _ => .done
  | .push address => (s.push address).map fun _ => .done
  | .pop => s.pop.map .address
  | .clearScreen => ⟨s.edit Machine.clearScreen, .ok .done⟩
  | .setFlag value => ⟨s.edit fun m => m.setRegister flagRegister value, .ok .done⟩

/-- Carries out commands in order: the session at the end, and what each command came to. -/
def performAll (patience : Nat) (s : Session) :
    List Command → Session × List (Except SessionError Answer)
  | [] => (s, [])
  | c :: rest =>
    let r := s.perform patience c
    let (t, results) := performAll patience r.session rest
    (t, r.result :: results)

end Session

end Chip8

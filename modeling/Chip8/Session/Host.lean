/-
# Chip8.Session.Host — what the host does between cycles.

The host loads programs, writes the keypad, and reaches into memory and stack.  A single move of the
machine that fails leaves the session with the machine that the move has left.
-/
import Chip8.Primitive
import Chip8.Session

namespace Chip8.Session

/-! ## Loading -/

/-- Begins anew with a program image.  The source of random bytes goes on where it was. -/
def load (s : Session) (image : List UInt8) : Reply Unit :=
  match Machine.boot? image with
  | none => ⟨s, .error (.imageTooLarge image.length)⟩
  | some machine =>
    let begun := { s with machine, cycles := 0, trace := #[] }
    ⟨(begun.note (.imagePlaced image.length)).note (.programLoaded image.length), .ok ()⟩

/-- Begins anew with the contents of a file. -/
def loadFile (s : Session) (path : String) (file : HostFile) : Reply Unit :=
  match file.contents (HostPath.clean path) with
  | .error e => ⟨s, .error (.file e)⟩
  | .ok image => s.load image

/-! ## Keys -/

/-- Puts a key down or lifts it. -/
def setKey (s : Session) (key : Int) (isDown : Bool) : Reply Unit :=
  match Key.ofInt? key with
  | none => ⟨s, .error (.invalidKey key)⟩
  | some k => ⟨s.edit fun m => { m with keypad := m.keypad.setKey k isDown }, .ok ()⟩

/-- Puts a key down. -/
def pressKey (s : Session) (key : Int) : Reply Unit :=
  s.setKey key true

/-- Lifts a key. -/
def releaseKey (s : Session) (key : Int) : Reply Unit :=
  s.setKey key false

/-- The keys of a list of integers, or the first integer that is no key.  Where the list holds several
such integers, a host that goes through its keys in another order may be told of another one. -/
def keysOf : List Int → Except Int (List Key)
  | [] => .ok []
  | key :: rest =>
    match Key.ofInt? key with
    | none => .error key
    | some k => (keysOf rest).map (k :: ·)

/-- Puts exactly the given keys down. -/
def setKeys (s : Session) (keys : List Int) : Reply Unit :=
  match keysOf keys with
  | .error key => ⟨s, .error (.invalidKey key)⟩
  | .ok ks => ⟨s.edit fun m => { m with keypad := .ofPressed ks }, .ok ()⟩

/-! ## Single moves of the machine -/

/-- Answers with what came of a move of the machine, on the machine that the move leaves. -/
def settle {α : Type} (s : Session) (move : Except (Stopped Machine Cause) (α × Machine)) :
    Reply α :=
  match move with
  | .error ⟨machine, cause⟩ => ⟨{ s with machine }, .error (.fault ⟨cause, none⟩)⟩
  | .ok (a, machine) => ⟨{ s with machine }, .ok a⟩

/-- Fetches an instruction outside any cycle. -/
def fetch (s : Session) : Reply Instruction :=
  s.settle s.machine.fetch

/-- Reads a memory window. -/
def read (s : Session) (address count : Int) : Reply (List UInt8) :=
  match s.machine.read address count with
  | .error cause => ⟨s, .error (.fault ⟨cause, none⟩)⟩
  | .ok bytes => ⟨s, .ok bytes⟩

/-- Writes a memory window. -/
def write (s : Session) (address : Int) (data : List UInt8) : Reply Unit :=
  s.settle ((s.machine.write address data).map fun machine => ((), machine))

/-- Pushes a return address. -/
def push (s : Session) (address : Int) : Reply Unit :=
  s.settle ((s.machine.push address).map fun machine => ((), machine))

/-- Pops the latest return address. -/
def pop (s : Session) : Reply Int :=
  s.settle s.machine.pop

/-- Executes an instruction outside any cycle, whatever the run state. -/
def execute (s : Session) (i : Instruction) : Reply Unit :=
  match s.machine.carryOut s.setup.variant i s.source with
  | .error ⟨(machine, source), .fault cause⟩ =>
    ⟨{ s with machine, source }, .error (.fault ⟨cause, none⟩)⟩
  | .error ⟨(machine, source), .misfit m⟩ => ⟨{ s with machine, source }, .error (.misfit m)⟩
  | .ok (machine, source) =>
    let journal := s.journal.noteAll (Event.ofExecution i s.machine machine)
    ⟨{ s with machine, source, journal }, .ok ()⟩

end Chip8.Session

/-
# Chip8.Session.Cycle — one instruction cycle and the ways it ends.

A cycle fetches an instruction, consults the hook when the word is outside the instruction set, and
executes it.  It ends well, or by a failing fetch, by a fault of the hook or of the instruction, by the
hook breaking it off, or by a misfit.  A fault halts the machine and is traced; a cycle that is broken
off or ends by a misfit is neither traced nor counted.  Whatever fails, the session goes on with the
machine and the source as the failing move has left them.
-/
import Chip8.Primitive
import Chip8.Session

namespace Chip8.Session

/-- Ends a cycle by a fault: the machine halts, and the fault learns where the instruction was. -/
def fail (s : Session) (before : Snapshot) (i : Option Instruction) (f : Fault) :
    Reply Instruction :=
  let located := f.locate before.pc
  let halted := (s.note (.faulted before.pc located.message)).setRunState .halted
  ⟨halted.record before i (some located.message), .error (.fault located)⟩

/-- Tells the hook of a word; it notes the word and then does what it does. -/
def callHook (s : Session) (i : Instruction) : Reply Unit :=
  match s.reaction? i with
  | none => ⟨s, .ok ()⟩
  | some reaction =>
    let noted := { s with reported := s.reported.push i.word }
    match reaction with
    | .ignore => ⟨noted, .ok ()⟩
    | .pause => ⟨noted.pause, .ok ()⟩
    | .halt => ⟨noted.halt, .ok ()⟩
    | .fault text pc => ⟨noted, .error (.fault ⟨.declared text, pc⟩)⟩
    | .breakOff text => ⟨noted, .error (.brokenOff text)⟩

/-- Reports a word outside the instruction set; other words pass. -/
def consult (s : Session) (pc : Int) (i : Instruction) : Reply Unit :=
  if i.op = .unknown then (s.note (.unrecognized pc i)).callHook i else ⟨s, .ok ()⟩

/-- Executes a fetched instruction and books the cycle. -/
def finish (s : Session) (before : Snapshot) (i : Instruction) : Reply Instruction :=
  match s.machine.carryOut s.setup.variant i s.source with
  | .error ⟨(machine, source), .fault cause⟩ =>
    { s with machine, source }.fail before (some i) ⟨cause, none⟩
  | .error ⟨(machine, source), .misfit m⟩ => ⟨{ s with machine, source }, .error (.misfit m)⟩
  | .ok (machine, source) =>
    let journal := s.journal.noteAll (Event.ofExecution i s.machine machine)
    let traced := { s with machine, source, journal }.record before (some i) none
    ⟨{ traced with cycles := traced.cycles + 1 }, .ok i⟩

/-- One cycle of a running machine. -/
def cycle (s : Session) : Reply Instruction :=
  let before := s.machine.snapshot
  match s.machine.fetch with
  | .error ⟨machine, cause⟩ => { s with machine }.fail before none ⟨cause, none⟩
  | .ok (i, machine) =>
    let fetched := { s with machine }.note (.executing before.pc i)
    match fetched.consult before.pc i with
    | ⟨t, .ok ()⟩ => t.finish before i
    | ⟨t, .error (.fault f)⟩ => t.fail before (some i) f
    | ⟨t, .error e⟩ => ⟨t, .error e⟩

/-- One cycle; refused unless the machine is running. -/
def step (s : Session) : Reply Instruction :=
  if s.machine.runState = .running then s.cycle
  else ⟨s, .error (.notRunning s.machine.runState)⟩

end Chip8.Session

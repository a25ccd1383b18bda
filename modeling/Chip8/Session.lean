/-
# Chip8.Session — one emulation session: a machine, its source of chance, and the books kept on it.

A session is set up once with a variant, a pacing, a choice whether to trace, and a hook that is told of
words outside the instruction set.  It then holds a machine, a source of random bytes, the count of
executed cycles, the trace, the words that the hook was told of, and a journal.

A hook may react to each word in another way, and to the same word in another way each time: what it does
depends on the instruction and on the words that it was told of before.

Calls on a session answer with a `Reply`: the session afterwards, and a result or an error.  The
session is there in both cases, so what a failing call leaves behind can be stated.
-/
import Chip8.HostFile
import Chip8.Journal
import Chip8.Machine.Snapshot
import Chip8.Pacing
import Chip8.Random.ByteSource
import Chip8.Text.Numeral
import Chip8.Variant

namespace Chip8

/-- What a hook does with a word outside the instruction set, once it has taken note of it. -/
inductive Reaction where
  /-- Nothing more. -/
  | ignore
  /-- It pauses the machine. -/
  | pause
  /-- It halts the machine. -/
  | halt
  /-- It declares a fault, perhaps with an address of its own. -/
  | fault (text : String) (pc : Option Int)
  /-- It breaks off the cycle with an error that is no fault of the machine. -/
  | breakOff (text : String)
  deriving DecidableEq

/-- Whoever is told of words outside the instruction set. -/
structure Hook where
  /-- The reaction to an instruction, after the words that the hook was told of before. -/
  react : Array UInt16 → Instruction → Reaction

namespace Hook

/-- The hook that reacts in the same way each time. -/
def always (reaction : Reaction) : Hook :=
  ⟨fun _ _ => reaction⟩

/-- Only takes note. -/
def ignore : Hook := always .ignore

/-- Pauses the machine each time. -/
def pause : Hook := always .pause

/-- Halts the machine. -/
def halt : Hook := always .halt

/-- Declares a fault each time. -/
def fault (text : String) (pc : Option Int) : Hook := always (.fault text pc)

/-- Breaks off each cycle that it is told of. -/
def breakOff (text : String) : Hook := always (.breakOff text)

end Hook

/-- What is chosen once for a session. -/
structure Setup where
  /-- The disputed semantics. -/
  variant : Variant
  /-- The rates of the session. -/
  pacing : Pacing
  /-- Whether cycles are traced. -/
  isTracing : Bool
  /-- The hook, if there is one. -/
  hook : Option Hook

/-- One traced cycle. -/
structure TraceEntry where
  /-- How many cycles were executed before this one. -/
  cycle : Nat
  /-- Where the instruction was fetched from. -/
  pc : Int
  /-- The instruction; `none` when the fetch failed. -/
  instruction : Option Instruction
  /-- The state before the cycle. -/
  before : Snapshot
  /-- The state after the cycle. -/
  after : Snapshot
  /-- The text of the fault that ended the cycle. -/
  error : Option String
  deriving DecidableEq

/-- Why a call on a session failed. -/
inductive SessionError where
  /-- A cycle was asked of a machine that is not running. -/
  | notRunning (runState : RunState)
  /-- The machine faulted. -/
  | fault (fault : Fault)
  /-- The image does not fit into memory. -/
  | imageTooLarge (size : Nat)
  /-- No key has this number. -/
  | invalidKey (key : Int)
  /-- The hook broke off the cycle. -/
  | brokenOff (text : String)
  /-- An instruction cannot use a value that a host has set. -/
  | misfit (misfit : Misfit)
  /-- A file could not be read. -/
  | file (error : FileError)
  /-- A run without a bound was given up. -/
  | stillRunning
  deriving DecidableEq

namespace SessionError

/-- The text of a failed call. -/
def message : SessionError → String
  | notRunning runState => "Machine is " ++ runState.name
  | fault f => f.message
  | imageTooLarge size =>
    "Program image too large: " ++ toString size ++ " bytes (max " ++ toString maxImageSize ++ ")"
  | invalidKey key =>
    if Text.hasDecimal key then "Invalid key: " ++ toString key else Text.tooLongForDecimal
  | brokenOff text => text
  | misfit m => m.message
  | file error => error.message
  | stillRunning => "The machine is still running"

/-- Whether the error is one of the emulator's own.  The others are those of its surroundings: of a host's
values, of files, and of a hook. -/
def isOwn : SessionError → Bool
  | notRunning _ | fault _ | imageTooLarge _ => true
  | invalidKey _ | brokenOff _ | misfit _ | file _ | stillRunning => false

end SessionError

/-- An emulation session. -/
structure Session where
  /-- What was chosen once. -/
  setup : Setup
  /-- The machine. -/
  machine : Machine
  /-- Where random bytes come from. -/
  source : ByteSource
  /-- How many cycles were executed since the last load. -/
  cycles : Nat
  /-- The traced cycles since the last load. -/
  trace : Array TraceEntry
  /-- The words that the hook was told of. -/
  reported : Array UInt16
  /-- What was reported. -/
  journal : Journal

/-- The answer to a call: the session afterwards, and the result or the error. -/
structure Reply (α : Type) where
  /-- The session afterwards. -/
  session : Session
  /-- What came of the call. -/
  result : Except SessionError α

namespace Session

/-- A fresh session on a machine without a program. -/
def start (setup : Setup) (threshold : Option Level) (source : ByteSource) : Session where
  setup := setup
  machine := .empty
  source := source
  cycles := 0
  trace := #[]
  reported := #[]
  journal := (Journal.start threshold).note (.imagePlaced 0)

/-! ## Small steps -/

/-- Reports an event. -/
def note (s : Session) (e : Event) : Session :=
  { s with journal := s.journal.note e }

/-- Changes the machine. -/
def edit (s : Session) (change : Machine → Machine) : Session :=
  { s with machine := change s.machine }

/-- Sets the run state. -/
def setRunState (s : Session) (r : RunState) : Session :=
  s.edit fun m => { m with runState := r }

/-- Whether the machine is running. -/
def isRunning (s : Session) : Bool :=
  s.machine.runState == .running

/-- How the hook reacts when it is told of an instruction next; `none` when there is no hook. -/
def reaction? (s : Session) (i : Instruction) : Option Reaction :=
  s.setup.hook.map fun hook => hook.react s.reported i

/-- Appends a cycle to the trace of a tracing session. -/
def record (s : Session) (before : Snapshot) (instruction : Option Instruction)
    (error : Option String) : Session :=
  if s.setup.isTracing then
    let entry : TraceEntry :=
      ⟨s.cycles, before.pc, instruction, before, s.machine.snapshot, error⟩
    { s with trace := s.trace.push entry }
  else s

/-! ## Run state -/

/-- Pauses a running machine. -/
def pause (s : Session) : Session :=
  if s.machine.runState = .running then (s.setRunState .paused).note (.paused s.machine.pc) else s

/-- Resumes a paused machine. -/
def resume (s : Session) : Session :=
  if s.machine.runState = .paused then (s.setRunState .running).note (.resumed s.machine.pc) else s

/-- Pauses a running machine and resumes any other. -/
def togglePause (s : Session) : Session :=
  if s.machine.runState = .running then s.pause else s.resume

/-- Halts the machine for good. -/
def halt (s : Session) : Session :=
  if s.machine.runState ≠ .halted then (s.setRunState .halted).note (.halted s.machine.pc) else s

/-- One tick of the timer. -/
def tick (s : Session) : Session :=
  s.edit Machine.tick

end Session

end Chip8

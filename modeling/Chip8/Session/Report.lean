/-
# Chip8.Session.Report — the trace of a session as text, and its summary.

The trace text has a block for each traced cycle: its number and how it ended, where the instruction
stood, the instruction, and what registers it changed.  The state at the end follows.  The summary
gathers the figures that a host shows when a run is over.
-/
import Chip8.Session
import Chip8.Text.Lines

namespace Chip8

namespace TraceEntry

/-- The text of the fault that ended the cycle, if that says anything: a fault without a text is shown
nowhere. -/
def shownError? (e : TraceEntry) : Option String :=
  e.error.filter fun text => !text.isEmpty

/-- The cycle ended well, or by which fault. -/
def status (e : TraceEntry) : String :=
  match e.shownError? with
  | none => "OK"
  | some text => "ERROR: " ++ text

/-- A register that the cycle changed, with its values before and after. -/
def changeText (r : Nat) (old new : Int) : String :=
  registerName r ++ ": " ++ Text.hex 2 old ++ " -> " ++ Text.hex 2 new

/-- The registers that the cycle changed. -/
def changes (e : TraceEntry) : List String :=
  let pairs := e.before.registers.toList.zip e.after.registers.toList
  pairs.zipIdx.filterMap fun ((old, new), r) =>
    if old = new then none else some (changeText r old new)

/-- The block of one cycle, as lines. -/
def report (e : TraceEntry) : List String :=
  let instruction :=
    match e.instruction with
    | none => []
    | some i => ["  Instruction: " ++ i.text]
  let changed :=
    if e.changes.isEmpty then [] else ["  Changes: " ++ ", ".intercalate e.changes]
  let moved :=
    if e.before.index = e.after.index then []
    else ["  I: " ++ Text.hex 3 e.before.index ++ " -> " ++ Text.hex 3 e.after.index]
  ["", "[Cycle " ++ toString e.cycle ++ "] " ++ e.status, "  PC: " ++ Text.hex 3 e.pc] ++
    instruction ++ changed ++ moved

end TraceEntry

/-- The figures of a session. -/
structure Summary where
  /-- Executed cycles. -/
  cycles : Nat
  /-- The run state. -/
  runState : RunState
  /-- The registers under their names. -/
  registers : List (String × Int)
  /-- The index register. -/
  index : Int
  /-- The program counter. -/
  pc : Int
  /-- Open calls. -/
  stackDepth : Nat
  /-- The delay timer. -/
  delayTimer : Int
  /-- A key wait is in progress. -/
  awaitingKey : Bool
  /-- Traced cycles. -/
  traceLength : Nat
  /-- The faults in the trace that have a text. -/
  errors : List String
  deriving DecidableEq

namespace Session

/-- The trace of a session and its final state, as lines. -/
def traceLines (s : Session) : List String :=
  let bar := Text.rule '=' 70
  [bar, "CHIP-8 EXECUTION TRACE", bar] ++ s.trace.toList.flatMap TraceEntry.report ++
    ["", bar, "FINAL STATE", bar, "  " ++ s.machine.text, "  Cycles: " ++ toString s.cycles]

/-- The trace of a session and its final state, as text. -/
def traceText (s : Session) : String :=
  Text.printLines s.traceLines

/-- The figures of a session. -/
def summary (s : Session) : Summary where
  cycles := s.cycles
  runState := s.machine.runState
  registers := s.machine.namedRegisters
  index := s.machine.index
  pc := s.machine.pc
  stackDepth := s.machine.stack.length
  delayTimer := s.machine.delayTimer
  awaitingKey := s.machine.awaitingKey
  traceLength := s.trace.size
  errors := s.trace.toList.filterMap TraceEntry.shownError?

end Session

end Chip8

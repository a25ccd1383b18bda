/-
# Chip8.Showcase — a program shown on three pages.

A showcase runs a program for some frames with keys held down, always traced, and presents the framed
screen, a summary, and the last hundred traced cycles.  An error of the emulator while frames are run is
part of the summary.  A request that cannot be met is presented as an error on the first page, with the
other two empty.
-/
import Chip8.CommandLine.Play
import Chip8.Program.Bundled

namespace Chip8

/-- What is asked of a showcase. -/
structure Showcase where
  /-- The path of a program image with what stands there; `none` takes a bundled program. -/
  rom : Option (String × HostFile)
  /-- The name of a bundled program. -/
  program : String
  /-- The name of a preset variant. -/
  preset : String
  /-- How many frames to run. -/
  frames : Int
  /-- The keys that are held down. -/
  keys : String
  /-- The seed of the random source. -/
  seed : Int

/-- The pages of a showcase. -/
structure Pages where
  /-- The screen. -/
  screen : String
  /-- The summary. -/
  summary : String
  /-- The trace. -/
  trace : String
  deriving DecidableEq

namespace Showcase

/-- How many traced cycles are shown. -/
def shownCycles : Nat := 100

/-- The line of a register; a value other than zero is marked. -/
def registerLine (name : String) (value : Int) : String :=
  "  " ++ name ++ ": " ++ Text.decimalColumn 3 value ++ " (0x" ++ Text.hex 2 value ++ ")" ++
    (if value = 0 then "" else " *")

/-- The lines of the summary page. -/
def summaryLines (s : Summary) (trouble : Option String) : List String :=
  ["EXECUTION SUMMARY", Text.rule '=' 40, "Cycles: " ++ toString s.cycles,
    "State: " ++ s.runState.name,
    "PC: " ++ Text.hex 3 s.pc ++ "   I: " ++ Text.hex 3 s.index,
    "Stack depth: " ++ toString s.stackDepth, "Delay timer: " ++ toString s.delayTimer] ++
  (match trouble.filter fun text => !text.isEmpty with
    | none => []
    | some text => ["", "Runtime: " ++ text]) ++
  ["", "REGISTERS", Text.rule '-' 40] ++
  s.registers.map fun p => registerLine p.1 p.2

/-- The lines of one traced cycle. -/
def cycleLines (e : TraceEntry) : List String :=
  let instruction := (e.instruction.map Instruction.text).getD "None"
  ("[" ++ toString e.cycle ++ "] " ++ Text.hex 3 e.pc ++ ": " ++ instruction) ::
    (e.shownError?.map fun text => "    ERROR: " ++ text).toList

/-- The lines of the trace page. -/
def traceLines (trace : Array TraceEntry) : List String :=
  ["EXECUTION TRACE (last 100 cycles)", Text.rule '=' 60] ++
    (trace.toList.drop (trace.size - shownCycles)).flatMap cycleLines

/-- The pages of a session, and of the error that its frames ended by. -/
def pagesOf (s : Session) (trouble : Option String) : Pages where
  screen := s.screenText
  summary := Text.joinLines (summaryLines s.summary trouble)
  trace := Text.joinLines (traceLines s.trace)

/-- The pages of a session after its frames. -/
def pagesAfter (r : Reply Unit) : Except Trouble Pages :=
  match r.result with
  | .ok () => .ok (pagesOf r.session none)
  | .error e =>
    if e.isOwn then .ok (pagesOf r.session (some e.message)) else .error (.session e)

/-- Loads the program; a path wins over a name. -/
def loadProgram (q : Showcase) (s : Session) : Except Trouble Session :=
  match q.rom with
  | some (path, file) => Session.orTrouble (s.loadFile path file)
  | none =>
    match Program.bundled? q.program with
    | none => .error (.unknownProgram q.program)
    | some image => Session.orTrouble (s.load image)

/-- The pages of a request, or what keeps it from being met. -/
def run (q : Showcase) : Except Trouble Pages :=
  match Variant.preset? q.preset with
  | none => .error (.unknownVariant q.preset)
  | some variant =>
    let opened := Session.start ⟨variant, .standard, true, none⟩ none (.ofSeed q.seed)
    match q.loadProgram opened with
    | .error t => .error t
    | .ok loaded =>
      match loaded.holdKeys q.keys with
      | .error t => .error t
      | .ok held => pagesAfter (held.runFrames q.frames.toNat)

/-- What is presented for a request. -/
def present (q : Showcase) : Pages :=
  match q.run with
  | .ok pages => pages
  | .error t => ⟨t.line, "", ""⟩

end Showcase

end Chip8

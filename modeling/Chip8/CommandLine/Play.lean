/-
# Chip8.CommandLine.Play — what a run from the command line prints and how it ends.

The program is taken from a file or from the arguments, the keys are put down, and the frames are run.
A reported trouble with the program or the keys is printed and ends the run; any other ends it as it
is, and so does a choice that was given nothing, at the point where it is needed.  An error of the emulator
while frames are run is printed, and the screen still follows it.
-/
import Chip8.CommandLine.Choices
import Chip8.CommandLine.Help
import Chip8.Screen.Picture
import Chip8.Session.Report
import Chip8.Session.Run
import Chip8.Trouble

namespace Chip8

/-- The framed screen of a session. -/
def Session.screenText (s : Session) : String :=
  s.machine.screen.picture Screen.standardOn Screen.standardOff true

namespace CommandLine

/-- How a run ends. -/
inductive Ending where
  /-- With an exit code. -/
  | exit (code : Nat)
  /-- With a trouble that is not reported. -/
  | escape (trouble : Trouble)
  /-- With a choice that was needed and given nothing. -/
  | gap (gap : Gap)
  deriving DecidableEq

/-- A run: what it printed, what was noted in the journal, and how it ended. -/
structure Outcome where
  /-- The printed lines. -/
  printed : List String
  /-- The noted events. -/
  journal : Journal
  /-- The end. -/
  ending : Ending
  deriving DecidableEq

/-- A session with the given settings; `entropy` serves when no seed is chosen. -/
def openSession (settings : Settings) (wantsTrace : Bool) (entropy : ByteSource) : Session :=
  let source :=
    match settings.seed with
    | some seed => .ofSeed seed
    | none => entropy
  Session.start ⟨settings.variant, settings.pacing, wantsTrace, none⟩ (some settings.level) source

/-- Loads the chosen program; a path wins over words. -/
def loadProgram (c : Choices) (file : HostFile) (s : Session) : Except Trouble Session :=
  if c.rom = "" then s.loadText c.hex
  else if file.isMissing then .error (.missingFile c.rom)
  else Session.orTrouble (s.loadFile c.rom file)

/-- The line that announces the chosen program. -/
def announcement (c : Choices) : String :=
  if c.rom = "" then "Running inline program" else "Loading ROM: " ++ c.rom

/-- The lines under the screen. -/
def figures (s : Summary) : List String :=
  let registers := s.registers.map fun p => Text.quoted p.1 ++ ": " ++ toString p.2
  ["Cycles: " ++ toString s.cycles, "State: " ++ s.runState.name,
   "PC: " ++ Text.hex 3 s.pc ++ "  I: " ++ Text.hex 3 s.index ++ "  Stack depth: " ++
     toString s.stackDepth,
   "Registers: \x7b" ++ ", ".intercalate registers ++ "\x7d"]

/-- A run that a trouble ends before its first frame, after some lines. -/
def failed (printed : List String) (s : Session) (t : Trouble) : Outcome :=
  if t.isReported then ⟨printed ++ [t.line], s.journal, .exit 1⟩
  else ⟨printed, s.journal, .escape t⟩

/-- Prints what there is to show of a session, after some lines. -/
def shown (c : Choices) (printed : List String) (s : Session) (code : Nat) : Outcome :=
  let trace := if c.wantsTrace then s.traceLines else []
  let closing := if c.isQuiet then [] else figures s.summary
  ⟨printed ++ trace ++ [s.screenText] ++ closing, s.journal, .exit code⟩

/-- Runs frames, after some lines, and prints what there is to show. -/
def playFrames (c : Choices) (frames : Int) (printed : List String) (s : Session) : Outcome :=
  let r := s.runFrames frames.toNat
  match r.result with
  | .ok () => shown c printed r.session 0
  | .error e =>
    if e.isOwn then shown c (printed ++ ["Execution error: " ++ e.message]) r.session 1
    else ⟨printed, r.session.journal, .escape (.session e)⟩

/-- Puts the chosen keys down and runs the chosen frames, after some lines. -/
def playLoaded (c : Choices) (printed : List String) (s : Session) : Outcome :=
  match c.keys.need .keys with
  | .error gap => ⟨printed, s.journal, .gap gap⟩
  | .ok keys =>
    match s.holdKeys keys with
    | .error t => failed printed s t
    | .ok held =>
      match c.frames.need .frames with
      | .error gap => ⟨printed, held.journal, .gap gap⟩
      | .ok frames => playFrames c frames printed held

/-- A whole run: `file` is what stands at the chosen path. -/
def play (c : Choices) (settings : Settings) (file : HostFile) (entropy : ByteSource) : Outcome :=
  let opened := openSession settings c.wantsTrace entropy
  match loadProgram c file opened with
  | .error t => failed [] opened t
  | .ok loaded => playLoaded c (if c.isQuiet then [] else [announcement c]) loaded

/-- A run from arguments: `files` tells what stands at a path. -/
def runArguments (arguments : List String) (files : String → HostFile) (entropy : ByteSource) :
    Except Stop Outcome :=
  match Choices.ofArguments arguments with
  | .error stop => .error stop
  | .ok c =>
    match c.settings with
    | .error (.usage e) => .error (.usage e)
    | .error (.gap gap) => .ok ⟨[], .start none, .gap gap⟩
    | .ok settings => .ok (play c settings (files c.rom) entropy)

/-- The line of refused arguments. -/
def usageLine (e : UsageError) : String :=
  programName ++ ": error: " ++ e.message

/-- The line of a noted event. -/
def eventLine (e : Event) : String :=
  e.level.name ++ " " ++ e.reporter.name ++ ": " ++ e.text

end CommandLine

end Chip8

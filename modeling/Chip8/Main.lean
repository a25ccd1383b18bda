/-
# Chip8.Main — the program.

Reads the arguments, looks at the path they choose, and prints what the run prints.  Reported events
go to standard error.  The exit code is that of the run, two for refused arguments, and one for a
trouble that the run does not catch.
-/
import Chip8.CommandLine.Play

namespace Chip8.CommandLine

/-- The system's code for reading a directory as a file. -/
def directoryCode : UInt32 := 21

/-- The system's code for a name that is too long, negated in 32 bits as it comes from opening files. -/
def longNameCode : UInt32 := 4294967260

/-- What stands at a path. -/
def lookAt (path : String) : IO HostFile := do
  if path.toList.contains (Char.ofNat 0) then return .unnameable
  try
    let bytes ← IO.FS.readBinFile path
    return .regular bytes.toList
  catch
    | .noFileOrDirectory .. => return .absent
    | .inappropriateType _ code _ => return if code = directoryCode then .directory else .blocked
    | .invalidArgument _ code details =>
      if code = longNameCode then return .tooLong else throw (.invalidArgument none code details)
    | e => throw e

/-- The largest seed that is drawn. -/
def largestSeed : Nat := 4611686018427387904

/-- Bytes for runs without a seed. -/
def drawEntropy : IO ByteSource := do
  let seed ← IO.rand 0 largestSeed
  return .ofSeed seed

/-- Answers refused arguments. -/
def refuse (e : UsageError) : IO UInt32 := do
  IO.eprint (Text.printLines usageLines)
  IO.eprintln (usageLine e)
  return 2

/-- The whole program: its exit code. -/
def runProgram (arguments : List String) : IO UInt32 := do
  match Choices.ofArguments arguments with
  | .error .help =>
    IO.print (Text.printLines helpLines)
    return 0
  | .error (.usage e) => refuse e
  | .ok c =>
    let file ← lookAt c.rom
    match runArguments arguments (fun _ => file) (← drawEntropy) with
    | .error .help => return 0
    | .error (.usage e) => refuse e
    | .ok outcome =>
      outcome.journal.events.forM fun e => IO.eprintln (eventLine e)
      IO.print (Text.printLines outcome.printed)
      match outcome.ending with
      | .exit code => return code.toUInt32
      | .escape trouble =>
        IO.eprintln trouble.message
        return 1
      | .gap gap =>
        IO.eprintln gap.message
        return 1

end Chip8.CommandLine

def main (arguments : List String) : IO UInt32 :=
  Chip8.CommandLine.runProgram arguments

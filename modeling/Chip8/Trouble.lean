/-
# Chip8.Trouble — what keeps a program from being run and shown.

A request to run a program can fail before its first frame: its file is missing or unreadable, its
words or its keys cannot be read, a name stands for nothing, or the session refuses.  Most troubles are
reported to the user; the others end the program as they are.
-/
import Chip8.Program.Text
import Chip8.Session.Host

namespace Chip8

/-- What keeps a program from being run. -/
inductive Trouble where
  /-- A word of the program or of the key list. -/
  | word (error : Program.WordError)
  /-- The session refused. -/
  | session (error : SessionError)
  /-- Nothing stands at the path of the program. -/
  | missingFile (path : String)
  /-- No preset variant has the name. -/
  | unknownVariant (name : String)
  /-- No bundled program has the name. -/
  | unknownProgram (name : String)
  deriving DecidableEq

namespace Trouble

/-- The text of a trouble. -/
def message : Trouble → String
  | word error => error.message
  | session error => error.message
  | missingFile path => "ROM file not found: " ++ path
  | unknownVariant name => Text.quoted name
  | unknownProgram name => Text.quoted name

/-- The line that tells of a trouble. -/
def line (t : Trouble) : String :=
  "Error: " ++ t.message

/-- Whether the command line reports a trouble.  It does not report a number that does not fit into
sixteen bits, nor a path that may hold something and cannot be read. -/
def isReported : Trouble → Bool
  | word error => !error.isOverflow
  | session (.file .unnameable) => true
  | session (.file _) => false
  | _ => true

end Trouble

namespace Session

/-- The session of a call that succeeded, or the trouble of one that did not. -/
def orTrouble (r : Reply Unit) : Except Trouble Session :=
  match r.result with
  | .ok () => .ok r.session
  | .error e => .error (.session e)

/-- Loads a program written as hexadecimal words. -/
def loadText (s : Session) (text : String) : Except Trouble Session :=
  match Program.readImage text with
  | .error e => .error (.word e)
  | .ok image => orTrouble (s.load image)

/-- Puts down the keys of a key list. -/
def holdKeys (s : Session) (text : String) : Except Trouble Session :=
  match Program.readKeys text with
  | .error e => .error (.word e)
  | .ok keys => orTrouble (s.setKeys keys)

end Session

end Chip8

/-
# Chip8.Fault — what can stop a running program.

A cause says what went wrong.  A fault is a cause together with the address of the instruction it
happened in, which is known only when the instruction was fetched by a session.

A misfit is no fault of the program: a host has set a part of the machine to a value that an instruction
cannot use.

What fails may have written something before.  So a failing move does not only say why it fails, but
hands over the state that it has come to (`Stopped`).
-/
import Chip8.Byte
import Chip8.Memory
import Chip8.Text.Hex

namespace Chip8

/-- The most return addresses the call stack holds. -/
def stackCapacity : Nat := 12

/-- What went wrong. -/
inductive Cause where
  /-- A call with a full call stack. -/
  | stackOverflow
  /-- A return with an empty call stack. -/
  | stackUnderflow
  /-- An access to a window that does not lie inside memory. -/
  | outOfBounds (window : OutOfBounds)
  /-- A fault declared by the host. -/
  | declared (text : String)
  deriving DecidableEq, Repr

namespace Cause

/-- The text of a cause. -/
def message : Cause → String
  | stackOverflow => "Call stack overflow (capacity " ++ toString stackCapacity ++ ")"
  | stackUnderflow => "Return with empty call stack"
  | outOfBounds w =>
    "Memory access out of bounds: " ++ toString w.count ++ " byte(s) at 0x" ++ Text.hex 4 w.address
  | declared text => text

end Cause

/-- A cause, and the address of the instruction it happened in when that is known. -/
structure Fault where
  /-- What went wrong. -/
  cause : Cause
  /-- The address of the faulting instruction. -/
  pc : Option Int
  deriving DecidableEq, Repr

namespace Fault

/-- The text of a fault is the text of its cause. -/
def message (f : Fault) : String :=
  f.cause.message

/-- Supplies the address of the faulting instruction unless one is there already. -/
def locate (f : Fault) (pc : Int) : Fault :=
  { f with pc := some (f.pc.getD pc) }

end Fault

/-- A value that an instruction cannot use. -/
inductive Misfit where
  /-- A value to be stored in memory does not fit into a byte. -/
  | byte
  /-- No key stands at the position of the candidate key. -/
  | key (error : PositionError)
  deriving DecidableEq, Repr

namespace Misfit

/-- The text of a misfit. -/
def message : Misfit → String
  | byte => "bytes must be in range(0, 256)"
  | key error => error.message "list index"

end Misfit

/-- Why an instruction fails. -/
inductive Failure where
  /-- By the program. -/
  | fault (cause : Cause)
  /-- By a value that a host has set. -/
  | misfit (misfit : Misfit)
  deriving DecidableEq, Repr

/-- What a move that fails leaves: the state as it is by then, and why the move goes no further. -/
structure Stopped (σ ε : Type) where
  /-- The state with all that was written before. -/
  state : σ
  /-- Why the move goes no further. -/
  reason : ε
  deriving DecidableEq, Repr

namespace Stopped

/-- The same state under another reason. -/
def map {σ ε δ : Type} (f : ε → δ) (e : Stopped σ ε) : Stopped σ δ :=
  ⟨e.state, f e.reason⟩

end Stopped

end Chip8

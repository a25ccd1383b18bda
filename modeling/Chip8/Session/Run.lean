/-
# Chip8.Session.Run — many cycles at a time.

A run executes cycles until the machine stops running, a cycle fails, or a budget is used up.  The
budget is the number that the host names, or else the bound of the session; a negative number allows
no cycle.  A frame is as many cycles as lie between two ticks, followed by a tick.

A run without any budget goes on until the machine stops.  So that running is total, such a run is
given up after `patience` cycles, with an error that says so; a run with a budget never is.
-/
import Chip8.Session.Cycle

namespace Chip8.Session

/-- At most `n` cycles, after `done` cycles of the same run. -/
def runFrom (done : Nat) : Nat → Session → Reply Nat
  | 0, s => ⟨s, .ok done⟩
  | n + 1, s =>
    if s.machine.runState = .running then
      match s.step with
      | ⟨t, .ok _⟩ => runFrom (done + 1) n t
      | ⟨t, .error e⟩ => ⟨t, .error e⟩
    else ⟨s, .ok done⟩

/-- At most `n` cycles. -/
def runFor (n : Nat) (s : Session) : Reply Nat :=
  runFrom 0 n s

/-- The budget of a run: the host's number, or else the bound of the session. -/
def budget (s : Session) (cycles : Option Int) : Option Nat :=
  (cycles.or s.setup.pacing.maxCycles).map Int.toNat

/-- Runs on a budget; without one, until the machine stops or patience ends. -/
def run (patience : Nat) (cycles : Option Int) (s : Session) : Reply Nat :=
  match s.budget cycles with
  | some n => s.runFor n
  | none =>
    match s.runFor patience with
    | ⟨t, .ok n⟩ => if t.isRunning then ⟨t, .error .stillRunning⟩ else ⟨t, .ok n⟩
    | r => r

/-- One frame: the cycles between two ticks, then a tick.  Nothing happens unless the machine is
running, and a failing cycle ends the frame before its tick. -/
def runFrame (s : Session) : Reply Nat :=
  if s.machine.runState = .running then
    match s.runFor s.setup.pacing.cyclesPerFrame with
    | ⟨t, .ok n⟩ => ⟨t.tick, .ok n⟩
    | r => r
  else ⟨s, .ok 0⟩

/-- Up to `n` frames, until one fails. -/
def runFrames : Nat → Session → Reply Unit
  | 0, s => ⟨s, .ok ()⟩
  | n + 1, s =>
    match s.runFrame with
    | ⟨t, .ok _⟩ => runFrames n t
    | ⟨t, .error e⟩ => ⟨t, .error e⟩

end Chip8.Session

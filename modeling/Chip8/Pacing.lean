/-
# Chip8.Pacing — how fast emulated time runs.

The host executes `clockRate` instructions and `timerRate` timer ticks in a second of emulated time,
both positive.  Between two ticks lie `cyclesPerFrame` instructions: the whole quotient of the rates,
but at least one.  `maxCycles` bounds a run for which the host names no bound of its own.
-/

namespace Chip8

/-- The rates of a session.  Both are positive. -/
structure Pacing where
  /-- Instructions in a second of emulated time. -/
  clockRate : Int
  /-- Timer ticks in a second of emulated time. -/
  timerRate : Int
  /-- The bound of a run without a bound of its own; `none` lets it go on for ever. -/
  maxCycles : Option Int
  clockRate_pos : 0 < clockRate
  timerRate_pos : 0 < timerRate
  deriving DecidableEq

/-- Why rates are refused. -/
inductive PacingError where
  /-- The clock rate is not positive. -/
  | clockRate (rate : Int)
  /-- The timer rate is not positive. -/
  | timerRate (rate : Int)
  deriving DecidableEq, Repr

namespace PacingError

/-- The text of a refused rate. -/
def message : PacingError → String
  | clockRate rate => "clock_rate must be positive, got " ++ toString rate
  | timerRate rate => "timer_hz must be positive, got " ++ toString rate

end PacingError

namespace Pacing

/-- The clock rate of a session that does not choose one. -/
def standardClockRate : Int := 750

/-- The timer rate of a session that does not choose one. -/
def standardTimerRate : Int := 60

/-- The bound on a run of a session that does not choose one. -/
def standardMaxCycles : Option Int := some 10000

/-- Checks the rates; of two faulty ones the clock rate is reported. -/
def ofRates (clockRate timerRate : Int) (maxCycles : Option Int) : Except PacingError Pacing :=
  if hc : 0 < clockRate then
    if ht : 0 < timerRate then .ok ⟨clockRate, timerRate, maxCycles, hc, ht⟩
    else .error (.timerRate timerRate)
  else .error (.clockRate clockRate)

/-- The pacing of a session that does not choose one. -/
def standard : Pacing :=
  ⟨standardClockRate, standardTimerRate, standardMaxCycles, by decide, by decide⟩

/-- Instructions between two timer ticks. -/
def cyclesPerFrame (p : Pacing) : Nat :=
  max 1 (p.clockRate / p.timerRate).toNat

theorem cyclesPerFrame_pos (p : Pacing) : 0 < p.cyclesPerFrame := by
  unfold cyclesPerFrame
  omega

end Pacing

end Chip8

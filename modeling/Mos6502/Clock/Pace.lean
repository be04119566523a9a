import Mos6502.Time
import Mos6502.SetupError

/-!
# Pace

How a clock spreads handler calls over time: in frames, `tick` times per second, so many calls
at once that they add up to at least `target` calls per second. Two roundings meet: the calls of
a frame are rounded up, the interval between frames is rounded down to whole milliseconds.
-/

namespace Mos6502

/-- The frequencies of a clock in hertz. -/
structure Pace where
  /-- Handler calls per second. -/
  target : UInt64
  /-- Frames per second. -/
  tick : UInt64
  target_ne_zero : target ≠ 0
  tick_ne_zero : tick ≠ 0
  deriving DecidableEq

namespace Pace

/-- A million handler calls per second. -/
def defaultTarget : UInt64 := 1000000

/-- Sixty frames per second. -/
def defaultTick : UInt64 := 60

/-- The pace of two frequencies, neither of which can be zero. -/
def ofFrequencies (target tick : UInt64) : Except SetupError Pace :=
  if h : target ≠ 0 ∧ tick ≠ 0 then
    .ok ⟨target, tick, h.1, h.2⟩
  else
    .error (.invalidFrequency target tick)

/-- The handler calls of one frame: the quotient of the frequencies, rounded up. -/
def callsPerFrame (pace : Pace) : UInt64 :=
  if pace.target % pace.tick = 0 then pace.target / pace.tick else pace.target / pace.tick + 1

/-- The whole milliseconds between two frames. -/
def intervalMilliseconds (pace : Pace) : Nat :=
  1000 / pace.tick.toNat

/-- The time between two frames. -/
def interval (pace : Pace) : Duration :=
  .ofMilliseconds pace.intervalMilliseconds

end Pace

end Mos6502

import Mos6502.Clock.Pace
import Mos6502.Clock.Grid
import Mos6502.Clock.Record

/-!
# The state of a clock

A clock is running or stopped, has a grid of deadlines or none, and is in a frame or not. The
three are kept apart because a handler may call the clock that is calling it: a clock can be
stopped, and even started again, while a frame of it is in progress.
-/

namespace Mos6502

/-- A clock. A new one is stopped, has counted nothing, and takes its target for its
frequency. -/
structure Clock where
  pace : Pace
  running : Bool := false
  grid : Option FrameGrid := none
  inFrame : Bool := false
  record : ClockRecord := { frequency := .nominal pace.target, usage := ⟨0, pace.interval⟩ }
  deriving DecidableEq

namespace Clock

/-- A stopped clock, given its frequencies. -/
def ofFrequencies (target tick : UInt64) : Except SetupError Clock :=
  (Pace.ofFrequencies target tick).map fun pace => { pace }

/-! ## Running and stopped -/

/-- Begin to run, with the first deadline an interval away. -/
def arm (clock : Clock) (now : Instant) : Clock :=
  { clock with
    running := true
    grid := some (.arm now clock.pace.interval)
    record.begun := some now }

/-- Cease to run. -/
def disarm (clock : Clock) : Clock :=
  { clock with running := false, grid := none }

/-- Put back the grid that was waited on, and count the deadlines it skipped. -/
def wake (clock : Clock) (grid : FrameGrid) (missed : UInt64) : Clock :=
  { clock with
    grid := some grid
    record.missed := clock.record.missed + missed.toNat }

/-! ## Frames -/

/-- Count a frame that is not run. -/
def refuseFrame (clock : Clock) : Clock :=
  { clock with record.refused := clock.record.refused + 1 }

/-- Begin a frame. -/
def enterFrame (clock : Clock) : Clock :=
  { clock with inFrame := true }

/-- End the frame in progress, which took `duration`. -/
def leaveFrame (clock : Clock) (duration : Duration) : Clock :=
  { clock with inFrame := false, record := clock.record.countFrame duration }

/-! ## Measurements -/

/-- Take the measurements anew. -/
def measure (clock : Clock) (now : Instant) : Clock :=
  { clock with
    record.measuredAt := some now
    record.frequency := clock.record.frequencyAt clock.pace.callsPerFrame.toNat now
    record.usage := ⟨clock.record.frameDuration, clock.pace.interval⟩ }

end Clock

end Mos6502

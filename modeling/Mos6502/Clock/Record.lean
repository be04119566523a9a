import Mos6502.Time

/-!
# The record of a clock

What a clock has counted and measured. A measurement is kept as the whole numbers it was made
of, and becomes a float only where it is looked at.
-/

namespace Mos6502

/-! ## Measurements -/

/-- Handler calls per second. -/
inductive Frequency where
  /-- What was asked for. -/
  | nominal (hertz : UInt64)
  /-- So many calls in such a span of time. -/
  | measured (calls : Nat) (elapsed : Duration)
  deriving DecidableEq, Repr

/-- A frequency in hertz. -/
def Frequency.hertz : Frequency → Float
  | nominal hertz => hertz.toFloat
  | measured calls elapsed => calls.toUInt64.toFloat / elapsed.fractionalMilliseconds * 1000.0

/-- How long a frame took, against the time between two frames. -/
structure Usage where
  frame : Duration
  interval : Duration
  deriving DecidableEq, Repr

/-- A usage in percent. It is zero if frames follow each other without an interval. -/
def Usage.percent (usage : Usage) : Float :=
  if usage.interval = 0 then
    0.0
  else
    usage.frame.fractionalMilliseconds / usage.interval.fractionalMilliseconds * 100.0

/-! ## Counters -/

/-- What a clock has counted and measured. -/
structure ClockRecord where
  /-- When the clock was last started. -/
  begun : Option Instant := none
  /-- When the measurements were last taken. -/
  measuredAt : Option Instant := none
  /-- Frames finished. -/
  frames : Nat := 0
  /-- Frames refused because another was in progress. -/
  refused : Nat := 0
  /-- Deadlines skipped because they had passed. -/
  missed : Nat := 0
  /-- How long the last frame took. -/
  frameDuration : Duration := 0
  frequency : Frequency
  usage : Usage
  deriving DecidableEq, Repr

namespace ClockRecord

/-- Frames that did not take place, because another was in progress or their deadline had
passed. -/
def dropped (record : ClockRecord) : Nat :=
  record.refused + record.missed

/-- Count a finished frame. -/
def countFrame (record : ClockRecord) (duration : Duration) : ClockRecord :=
  { record with frames := record.frames + 1, frameDuration := duration }

/-- The frequency at `now`, if each finished frame made `calls` handler calls. It is measured
from the last start, once time has passed since then, over all frames ever finished. -/
def frequencyAt (record : ClockRecord) (calls : Nat) (now : Instant) : Frequency :=
  match record.begun with
  | none => record.frequency
  | some begun =>
    if begun < now then .measured (record.frames * calls) (now - begun) else record.frequency

end ClockRecord

end Mos6502

import Mos6502.Host

/-!
# The grid of deadlines

Frames are due at deadlines an interval apart. Waiting sleeps until the next deadline and moves
on to the one after it. If that one has passed too, a later one is next and the number of skipped
deadlines is told, so that a clock that fell behind does not hurry to catch up.
-/

namespace Mos6502

/-- The next deadline, and the time from one deadline to the next. -/
structure FrameGrid where
  next : Instant
  interval : Duration
  deriving DecidableEq, Repr

namespace FrameGrid

/-- The grid whose first deadline is an interval from now. -/
def arm (now : Instant) (interval : Duration) : FrameGrid where
  next := now + interval
  interval := interval

/-- Move on to a deadline after `now`, the moment of waking up, and count the deadlines skipped.
Without an interval there is no grid, and the next deadline is now. The count is a number of 64
bits, and its low 32 bits are what the deadline moves by. -/
def advance (grid : FrameGrid) (now : Instant) : UInt64 × FrameGrid :=
  let following := grid.next + grid.interval
  if now < following then
    (0, { grid with next := following })
  else if grid.interval = 0 then
    (0, { grid with next := now })
  else
    let missed := ((now - following) / grid.interval).toUInt64 + 1
    (missed, { grid with next := following + grid.interval * missed.toUInt32.toNat })

/-- Sleep until the next deadline, unless it has passed, and move on. -/
def wait {τ : Type} [TimeSource τ] (grid : FrameGrid) :
    StateM (Host τ) (UInt64 × FrameGrid) := do
  let entered ← Host.now
  if entered < grid.next then
    Host.sleep (grid.next - entered)
  let woken ← Host.now
  return grid.advance woken

end FrameGrid

end Mos6502

/-!
# Faults of a clock

What a clock reports when its parts contradict each other.
-/

namespace Mos6502

/-- A contradiction inside a clock. -/
inductive ClockFault where
  /-- The clock is running and has no deadline to wait for. -/
  | unarmed
  deriving DecidableEq, Repr

/-- The text of a fault. -/
def ClockFault.message : ClockFault → String
  | unarmed => "clock is running but its frame timer is not armed"

end Mos6502

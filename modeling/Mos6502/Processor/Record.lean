import Mos6502.Time

/-!
# The record of a run

What a processor has executed since it was made, and when. The counters are numbers without a
bound; as long as they are below 2^64, `frequency` rounds them as a float does.
-/

namespace Mos6502

/-- The counters of a processor. -/
structure RunRecord where
  /-- The cycles of all executed instructions. -/
  cycles : Nat := 0
  /-- The number of executed instructions. -/
  instructions : Nat := 0
  /-- When execution began. -/
  begun : Option Instant := none
  /-- When the last instruction was finished. -/
  lastStep : Option Instant := none
  deriving DecidableEq, Repr

namespace RunRecord

/-- The time from the beginning to the last step, nothing if either is missing. -/
def elapsed (record : RunRecord) : Duration :=
  match record.begun, record.lastStep with
  | some begun, some last => last - begun
  | _, _ => 0

/-- Cycles per second, once time has passed. -/
def frequency (record : RunRecord) : Option Float :=
  if record.elapsed = 0 then
    none
  else
    some (record.cycles.toUInt64.toFloat / record.elapsed.seconds)

/-- Note that execution begins, unless it has begun before. -/
def beginAt (record : RunRecord) (now : Instant) : RunRecord :=
  { record with begun := record.begun.or (some now) }

/-- Count an executed instruction that was finished at `now`. -/
def credit (record : RunRecord) (cycles : UInt8) (now : Instant) : RunRecord :=
  { record.beginAt now with
    cycles := record.cycles + cycles.toNat
    instructions := record.instructions + 1
    lastStep := some now }

end RunRecord

end Mos6502

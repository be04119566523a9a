/-!
# Time

Moments and spans of time are whole nanoseconds. What the machine knows of time comes from a
source that can be read and slept on; everything that depends on it takes the source as a
parameter, so what holds for every source holds however fast the machine really runs.
-/

namespace Mos6502

/-- A span of time in nanoseconds. -/
abbrev Duration : Type := Nat

/-- A moment, in nanoseconds since some origin. -/
abbrev Instant : Type := Nat

namespace Duration

/-- The span of so many milliseconds. -/
def ofMilliseconds (n : Nat) : Duration :=
  n * 1000000

/-! ## Fractions of a second -/

/-- The seconds of a span: the whole seconds, plus what is left of them in nanoseconds divided
by 10^9. -/
def seconds (d : Duration) : Float :=
  (d / 1000000000).toUInt64.toFloat + (d % 1000000000).toUInt64.toFloat / 1e9

/-- The milliseconds of a span, fractions included. -/
def fractionalMilliseconds (d : Duration) : Float :=
  d.seconds * 1000.0

/-! ## Text -/

/-- The digits behind the point of `part / 10 ^ places`, without zeros at their end. -/
def fractionText (places part : Nat) : String :=
  let digits := ((Nat.toDigits 10 part).leftpad places '0').reverse.dropWhile (· == '0')
  if digits.isEmpty then "" else "." ++ String.ofList digits.reverse

/-- A span as a decimal number of the largest unit that it holds once. -/
def text (d : Duration) : String :=
  if d ≥ 1000000000 then
    s!"{d / 1000000000}{fractionText 9 (d % 1000000000)}s"
  else if d ≥ 1000000 then
    s!"{d / 1000000}{fractionText 6 (d % 1000000)}ms"
  else if d ≥ 1000 then
    s!"{d / 1000}{fractionText 3 (d % 1000)}µs"
  else
    s!"{d}ns"

end Duration

/-! ## Sources of time -/

/-- The values of `τ` tell the time. -/
class TimeSource (τ : Type) where
  /-- Read the time. -/
  now : StateM τ Instant
  /-- Let a span of time pass. -/
  sleep (span : Duration) : StateM τ Unit

/-- A source whose time passes only by its use: a reading takes a nanosecond, and a sleep takes
exactly the span asked for. -/
structure SimulatedTime where
  elapsed : Instant := 0
  deriving DecidableEq, Repr

instance : TimeSource SimulatedTime where
  now := fun time => (time.elapsed, ⟨time.elapsed + 1⟩)
  sleep span := fun time => ((), ⟨time.elapsed + span⟩)

end Mos6502

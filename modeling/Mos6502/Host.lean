import Mos6502.Journal.Basic

/-!
# The host

What a machine runs on: a source of time and a journal. A machine can read the time, sleep and
note events, and does nothing else to its host.
-/

namespace Mos6502

/-- A source of time and a journal. -/
structure Host (τ : Type) where
  time : τ
  journal : Journal := {}

namespace Host

variable {τ : Type}

/-- Note an event in the journal. -/
def note (event : Event) : StateM (Host τ) Unit :=
  modify fun ⟨time, journal⟩ => ⟨time, journal.note event⟩

/-- Whether the journal keeps events of a level. -/
def keeps (level : Level) : StateM (Host τ) Bool := do
  return (← get).journal.keeps level

variable [TimeSource τ]

/-- Read the time. -/
def now : StateM (Host τ) Instant := fun ⟨time, journal⟩ =>
  let (instant, time) := TimeSource.now.run time
  (instant, ⟨time, journal⟩)

/-- Let a span of time pass. -/
def sleep (span : Duration) : StateM (Host τ) Unit := fun ⟨time, journal⟩ =>
  let ((), time) := (TimeSource.sleep span).run time
  ((), ⟨time, journal⟩)

end Host

end Mos6502

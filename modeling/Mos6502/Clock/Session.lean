import Mos6502.Clock.Basic

/-!
# Sessions with a clock

A computation that can use one clock and the host it runs on. The handlers that a clock calls
are such computations themselves, so they can call the clock again. The result is missing when
a loop that need not end has reached its limit.
-/

namespace Mos6502

/-- A clock and its host. -/
structure ClockSession (τ : Type) where
  clock : Clock
  host : Host τ

/-- A computation with a clock. -/
abbrev ClockM (τ : Type) : Type → Type :=
  StateT (ClockSession τ) Option

namespace ClockM

variable {τ : Type}

/-- Do something that concerns the host alone. -/
def onHost {α : Type} (action : StateM (Host τ) α) : ClockM τ α := fun ⟨clock, host⟩ =>
  let (value, host) := action.run host
  some (value, ⟨clock, host⟩)

/-- The clock as it is. -/
def getClock : ClockM τ Clock := do
  return (← get).clock

/-- Change the clock. -/
def modifyClock (f : Clock → Clock) : ClockM τ Unit :=
  modify fun ⟨clock, host⟩ => ⟨f clock, host⟩

/-- Give up: a limit has been reached. -/
def giveUp {α : Type} : ClockM τ α := fun _ => none

end ClockM

end Mos6502

import Mos6502.Processor.Step
import Mos6502.Clock.Run

/-!
# Paced execution

The processor as the handler of a clock: each call of the handler is one step. Once a step fails
or the caller is satisfied, the clock is stopped and the outcome is fixed; the calls left in the
frame do nothing.
-/

namespace Mos6502.Processor

open ClockM

variable {β τ δ : Type}

/-- A processor on a clock, what its caller remembers, and the outcome once there is one. -/
structure PacedRun (β δ : Type) where
  cpu : Processor β
  memo : δ
  outcome : Option (Except Fault Unit) := none

/-- Stop the clock and fix the outcome. If the clock cannot be stopped, that is the outcome. -/
def conclude (result : Except Fault Unit) : ClockM τ (Except Fault Unit) := do
  match ← Clock.stop with
  | .ok () => return result
  | .error clockFault =>
    match result with
    | .ok () => pure ()
    | .error fault => onHost (Host.note (.stopFailed clockFault fault))
    return .error (.clock clockFault)

variable [TimeSource τ]

/-- Note the time as the beginning of execution, unless it has begun before. -/
def markBegun (cpu : Processor β) : StateM (Host τ) (Processor β) := do
  match cpu.record.begun with
  | some _ => return cpu
  | none =>
    let now ← Host.now
    return { cpu with record := cpu.record.beginAt now }

variable [Bus β]

/-- One call of the handler. `done` is asked after each step that succeeded. -/
def pacedStep (done : Processor β → δ → ClockM τ (Bool × δ)) (run : PacedRun β δ) :
    ClockM τ (PacedRun β δ) := do
  let ⟨cpu, memo, outcome⟩ := run
  match outcome with
  | some result => return ⟨cpu, memo, some result⟩
  | none =>
    match ← onHost cpu.step with
    | (.ok (), cpu) =>
      match ← done cpu memo with
      | (false, memo) => return ⟨cpu, memo, none⟩
      | (true, memo) => return ⟨cpu, memo, some (← conclude (.ok ()))⟩
    | (.error fault, cpu) => return ⟨cpu, memo, some (← conclude (.error fault))⟩

/-- Run the processor on the clock until `done` or until a step fails, with at most `limit`
ticks. `done` carries a memo from question to question. On a clock that is running already
nothing is executed. -/
def paceUntil (limit : Nat) (done : Processor β → δ → ClockM τ (Bool × δ)) (cpu : Processor β)
    (memo : δ) : ClockM τ (Except Fault Unit × Processor β × δ) := do
  let cpu ← onHost cpu.markBegun
  match ← Clock.run limit (pacedStep done) { cpu, memo } with
  | (.error fault, run) => return (.error (.clock fault), run.cpu, run.memo)
  | (.ok (), run) => return (run.outcome.getD (.ok ()), run.cpu, run.memo)

/-- Run the processor on the clock until a step fails. -/
def pace (limit : Nat) (cpu : Processor β) : ClockM τ (Except Fault Unit × Processor β) := do
  let (result, cpu, ()) ← paceUntil limit (fun _ () => return (false, ())) cpu ()
  return (result, cpu)

end Mos6502.Processor

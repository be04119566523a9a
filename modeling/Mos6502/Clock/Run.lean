import Mos6502.Clock.Fault
import Mos6502.Clock.Session

/-!
# Running a clock

A frame is a batch of handler calls, made back to back. A frame never overlaps another: one that
is asked for while a frame is in progress is refused. `start` runs a frame at once, `tick` waits
for the next deadline and runs one, and `run` goes on with ticks until the clock is stopped.
Stopping does not cut a frame short: the frame in progress makes all its calls.

A handler carries a state of its own from call to call. It may use the clock in any way.
-/

namespace Mos6502.Clock

open ClockM

variable {τ σ : Type}

/-! ## Stopping -/

/-- Stop a running clock. A frame in progress goes on to its end. -/
def stop : ClockM τ (Except ClockFault Unit) := do
  let clock ← getClock
  if clock.running then
    match clock.grid with
    | none => return .error .unarmed
    | some _ =>
      modifyClock disarm
      onHost (Host.note (.clockStopped clock.record.frames))
      return .ok ()
  else
    return .ok ()

/-! ## Frames -/

/-- Call a handler `n` times. -/
def repeatCalls (handler : σ → ClockM τ σ) : (n : Nat) → σ → ClockM τ σ
  | 0, state => fun session => some (state, session)
  | n + 1, state => fun session =>
    match handler state session with
    | none => none
    | some (state, session) => repeatCalls handler n state session

variable [TimeSource τ]

/-- Run a frame, and tell whether it was run. -/
def frame (handler : σ → ClockM τ σ) (state : σ) : ClockM τ (Bool × σ) := do
  let clock ← getClock
  if clock.inFrame then
    modifyClock refuseFrame
    onHost (Host.note .frameRefused)
    return (false, state)
  else
    modifyClock enterFrame
    let began ← onHost Host.now
    let state ← repeatCalls handler clock.pace.callsPerFrame.toNat state
    let ended ← onHost Host.now
    modifyClock (·.leaveFrame (ended - began))
    onHost (Host.note (.frameFinished (← getClock).record.frames (ended - began)))
    return (true, state)

/-! ## Starting and ticking -/

/-- Start a stopped clock and run its first frame. Tell whether the clock was stopped. -/
def start (handler : σ → ClockM τ σ) (state : σ) : ClockM τ (Bool × σ) := do
  let clock ← getClock
  if clock.running then
    return (false, state)
  else
    let now ← onHost Host.now
    modifyClock (·.arm now)
    onHost (Host.note (.clockStarted clock.pace.target clock.pace.callsPerFrame
      clock.pace.intervalMilliseconds))
    let (_, state) ← frame handler state
    return (true, state)

/-- Wait for the next deadline of a running clock and run a frame. Tell whether the clock is
running then. -/
def tick (handler : σ → ClockM τ σ) (state : σ) : ClockM τ (Except ClockFault Bool × σ) := do
  let clock ← getClock
  if clock.running then
    match clock.grid with
    | none => return (.error .unarmed, state)
    | some grid =>
      let (missed, grid) ← onHost grid.wait
      modifyClock (·.wake grid missed)
      if missed ≠ 0 then
        onHost (Host.note (.deadlinesMissed missed))
      let (_, state) ← frame handler state
      return (.ok (← getClock).running, state)
  else
    return (.ok false, state)

/-! ## Running -/

/-- Tick until the clock is stopped, at most `limit` times. -/
def tickUntilStopped (handler : σ → ClockM τ σ) :
    (limit : Nat) → σ → ClockM τ (Except ClockFault Unit × σ)
  | 0, _ => giveUp
  | limit + 1, state => do
    match ← tick handler state with
    | (.ok true, state) => tickUntilStopped handler limit state
    | (.ok false, state) => return (.ok (), state)
    | (.error fault, state) => return (.error fault, state)

/-- Start a stopped clock and run frames until it is stopped, with at most `limit` ticks. Do
nothing with a clock that is running already. -/
def run (limit : Nat) (handler : σ → ClockM τ σ) (state : σ) :
    ClockM τ (Except ClockFault Unit × σ) := do
  match ← start handler state with
  | (false, state) => return (.ok (), state)
  | (true, state) => tickUntilStopped handler limit state

/-! ## Looking at a clock -/

/-- The record of the clock, measured anew if it is running. -/
def readRecord : ClockM τ ClockRecord := do
  if (← getClock).running then
    let now ← onHost Host.now
    modifyClock (·.measure now)
  return (← getClock).record

end Mos6502.Clock

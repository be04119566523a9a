import Mos6502.Proofs.Machine.Unowned
import Mos6502.Proofs.Processor.Step

/-!
# What a step can do

On any bus, lawful or not, a step does one of two things (`Stepped`). If it fails, the processor is
halted then, and nothing else of it has changed but what reading has made of its bus. If it
succeeds, it has executed the instruction at the program counter and counted it, and the registers
that no instruction owns are as they were.
-/

namespace Mos6502

namespace Processor

variable {β τ : Type} [Bus β]

/-- The instruction that the byte at the program counter stands for. -/
def nextInstruction (cpu : Processor β) : Option Instruction :=
  cpu.instructionSet.get cpu.opcode

/-- The cycles of the instruction at the program counter. -/
def cost (cpu : Processor β) : Nat :=
  cpu.nextInstruction.elim 0 fun instruction => instruction.cycles.toNat

theorem cost_of_next {cpu : Processor β} {instruction : Instruction}
    (h : cpu.nextInstruction = some instruction) : cpu.cost = instruction.cycles.toNat := by
  unfold cost
  rw [h]
  rfl

theorem cost_lt (cpu : Processor β) : cpu.cost < 256 := by
  unfold cost
  cases cpu.nextInstruction with
  | none => decide
  | some instruction => exact instruction.cycles.toNat_lt

/-- What a step that ends at `now` can make of a processor. -/
inductive Stepped (now : Instant) (cpu : Processor β) : Except Fault Unit × Processor β → Prop
  | failed (fault : Fault) (bus : β) :
    Stepped now cpu (.error fault, { cpu with bus, halted := true })
  | executed (instruction : Instruction) (machine : Machine β) (hrun : cpu.halted = false)
    (hnext : cpu.nextInstruction = some instruction)
    (hunowned : cpu.registers.Unowned machine.registers) :
    Stepped now cpu (.ok (), { cpu with
      toMachine := machine
      record := cpu.record.credit instruction.cycles now })

theorem stepped_performedAt (tracing : Bool) (now : Instant) (cpu : Processor β)
    (instruction : Instruction) :
    ∃ machine : Machine β, cpu.performedAt tracing now instruction = { cpu with
      toMachine := machine
      record := cpu.record.credit instruction.cycles now } ∧
      cpu.registers.Unowned machine.registers := by
  have hexecute := Machine.keepsUnowned_execute (β := β) instruction
  have hread := Machine.KeepsUnowned.mapM (fun k => Machine.keepsUnowned_fetch (β := β) (k + 1))
    (List.range (instruction.size.toNat - 1))
  cases tracing with
  | false => exact ⟨_, rfl, hexecute cpu.toMachine⟩
  | true => exact ⟨_, rfl, (hread cpu.toMachine).trans (hexecute _)⟩

theorem stepped_stepAt (tracing : Bool) (now : Instant) (cpu : Processor β) :
    Stepped now cpu (cpu.stepAt tracing now) := by
  cases hrun : cpu.halted with
  | true =>
    rw [cpu.stepAt_of_halted _ _ hrun, ← show { cpu with halted := true } = cpu by rw [← hrun]]
    exact .failed .halted cpu.bus
  | false =>
    cases hget : cpu.instructionSet.get cpu.opcode with
    | none =>
      rw [cpu.stepAt_of_undefined _ _ hrun hget]
      exact .failed _ _
    | some instruction =>
      obtain ⟨machine, hperformed, hunowned⟩ :=
        stepped_performedAt tracing now cpu.fetched instruction
      rw [cpu.stepAt_of_defined _ _ hrun hget, hperformed]
      exact .executed instruction machine hrun hget hunowned

/-- **A step fails or executes one instruction.** -/
theorem stepped [TimeSource τ] (cpu : Processor β) (host : Host τ) :
    Stepped host.reading cpu (cpu.step.run host).1 := by
  obtain ⟨host', hstep, -⟩ := cpu.run_step host
  rw [hstep]
  exact cpu.stepped_stepAt _ _

/-! ## Counters -/

namespace Stepped

variable {now : Instant} {cpu : Processor β} {p : Except Fault Unit × Processor β}

theorem cycles_of_ok (h : Stepped now cpu p) (hok : p.1 = .ok ()) :
    p.2.record.cycles = cpu.record.cycles + cpu.cost := by
  cases h with
  | failed => cases hok
  | executed instruction machine hrun hnext =>
    rw [cost_of_next hnext]
    rfl

theorem record_of_error (h : Stepped now cpu p) {fault : Fault} (herror : p.1 = .error fault) :
    p.2.record = cpu.record := by
  cases h with
  | failed => rfl
  | executed => cases herror

/-! ## Instructions -/

theorem instructionSet_eq (h : Stepped now cpu p) :
    p.2.instructionSet = cpu.instructionSet := by
  cases h <;> rfl

theorem next_of_ok (h : Stepped now cpu p) (hok : p.1 = .ok ()) :
    ∃ instruction, cpu.nextInstruction = some instruction := by
  cases h with
  | failed => cases hok
  | executed instruction machine hrun hnext => exact ⟨instruction, hnext⟩

end Stepped

end Processor

end Mos6502

import Mos6502.Proofs.Processor.Halted
import Mos6502.Proofs.Processor.Reference

/-!
# Steps on flat memory

Reading a flat memory leaves it as it is, so a step on flat memory does one of three things
(`FlatStep`): it does nothing, it halts and keeps everything else, or it executes one instruction.
Whether instructions are traced makes no difference. What a step keeps is shown by these cases.
-/

namespace Mos6502.Processor

variable (cpu : Processor Memory) (tracing : Bool) (now : Instant)

theorem afterReads_memory (addresses : List Nat) (memory : Memory) :
    Bus.afterReads addresses memory = memory :=
  Bus.memory_afterReads addresses memory

/-- **An undefined opcode** halts the processor where it is. -/
theorem stepAt_of_get_eq_none (hrun : cpu.halted = false)
    (hget : cpu.instructionSet.get (cpu.bus.get cpu.registers.pc.toNat) = none) :
    cpu.stepAt tracing now =
      (.error (.undefinedOpcode (cpu.bus.get cpu.registers.pc.toNat) cpu.registers.pc cpu.seen),
        { cpu with halted := true }) := by
  have hopcode : cpu.instructionSet.get cpu.opcode = none := hget
  rw [cpu.stepAt_of_undefined tracing now hrun hopcode]
  unfold undefinedFault halting
  rw [snapshot_eq, afterReads_memory]
  rfl

/-- **A defined opcode** is one executed instruction. -/
theorem stepAt_of_get_eq_some (hrun : cpu.halted = false) {instruction : Instruction}
    (hget : cpu.instructionSet.get (cpu.bus.get cpu.registers.pc.toNat) = some instruction) :
    cpu.stepAt tracing now = (.ok (), { cpu with
      toMachine := cpu.toMachine.executed instruction
      record := cpu.record.credit instruction.cycles now }) := by
  have hopcode : cpu.instructionSet.get cpu.opcode = some instruction := hget
  rw [cpu.stepAt_of_defined tracing now hrun hopcode, performedAt_eq]

/-- What a step that ends at `now` can do, and when. -/
inductive FlatStep (now : Instant) (cpu : Processor Memory) :
    Except Fault Unit × Processor Memory → Prop
  | halted (h : cpu.halted = true) : FlatStep now cpu (.error .halted, cpu)
  | undefined (hrun : cpu.halted = false)
    (hget : cpu.instructionSet.get (cpu.bus.get cpu.registers.pc.toNat) = none) :
    FlatStep now cpu
      (.error (.undefinedOpcode (cpu.bus.get cpu.registers.pc.toNat) cpu.registers.pc cpu.seen),
        { cpu with halted := true })
  | executed (instruction : Instruction) (hrun : cpu.halted = false)
    (hget : cpu.instructionSet.get (cpu.bus.get cpu.registers.pc.toNat) = some instruction) :
    FlatStep now cpu (.ok (), { cpu with
      toMachine := cpu.toMachine.executed instruction
      record := cpu.record.credit instruction.cycles now })

theorem flatStep : FlatStep now cpu (cpu.stepAt tracing now) := by
  cases hrun : cpu.halted with
  | true =>
    rw [cpu.stepAt_of_halted _ _ hrun]
    exact .halted hrun
  | false =>
    cases hget : cpu.instructionSet.get (cpu.bus.get cpu.registers.pc.toNat) with
    | none =>
      rw [cpu.stepAt_of_get_eq_none _ _ hrun hget]
      exact .undefined hrun hget
    | some instruction =>
      rw [cpu.stepAt_of_get_eq_some _ _ hrun hget]
      exact .executed instruction hrun hget

end Mos6502.Processor

import Mos6502.Proofs.Machine.Reference
import Mos6502.Proofs.Processor.Step

/-!
# Steps follow the reference

A processor on flat memory that finds an instruction at its program counter executes it as the
reference says, counts it, and changes nothing else. The program counter may lie beyond the end of
the memory; tracing the instruction changes nothing.

Main result: `step_follows_reference`.
-/

namespace Mos6502.Processor

variable {τ : Type} [TimeSource τ]

theorem run_mapM_fetch (offsets : List Nat) (machine : Machine Memory) :
    ((offsets.mapM fun k => Machine.fetch (k + 1)).run machine).2 = machine := by
  induction offsets with
  | nil => rfl
  | cons k rest ih =>
    rw [List.mapM_cons, StateT.run_bind]
    exact ih

/-- Noting an instruction reads its bytes, and a flat memory does not mind. -/
theorem noted_eq (tracing : Bool) (cpu : Processor Memory) (instruction : Instruction) :
    cpu.noted tracing instruction = cpu := by
  cases tracing with
  | false => rfl
  | true =>
    obtain ⟨machine, instrs, record, halted⟩ := cpu
    have hread := run_mapM_fetch (List.range (instruction.size.toNat - 1)) machine
    exact congrArg (fun m => (⟨m, instrs, record, halted⟩ : Processor Memory)) hread

/-- **One executed instruction**, on flat memory. -/
theorem performedAt_eq (tracing : Bool) (now : Instant) (cpu : Processor Memory)
    (instruction : Instruction) :
    cpu.fetched.performedAt tracing now instruction =
      { cpu with
        toMachine := cpu.toMachine.executed instruction
        record := cpu.record.credit instruction.cycles now } := by
  show (let cpu := ((cpu.noted tracing instruction).onMachine (Machine.execute instruction)).2
    { cpu with record := cpu.record.credit instruction.cycles now } : Processor Memory) = _
  rw [noted_eq]
  obtain ⟨machine, instrs, record, halted⟩ := cpu
  show (⟨((Machine.execute instruction).run machine).2, instrs,
    record.credit instruction.cycles now, halted⟩ : Processor Memory) = _
  rw [Machine.run_execute]

/-- **A step follows the reference semantics.** Whatever instruction the instruction set gives the
byte at the program counter, the step succeeds and does to the machine what the reference says; it
counts the cycles of the instruction and the instruction itself. -/
theorem step_follows_reference (cpu : Processor Memory) (host : Host τ)
    {instruction : Instruction} (hrun : cpu.halted = false)
    (hget : cpu.instructionSet.get (cpu.bus.get cpu.registers.pc.toNat) = some instruction) :
    ∃ (after : Processor Memory) (host' : Host τ),
      cpu.step.run host = ((.ok (), after), host') ∧
      Follows instruction cpu.toMachine after.toMachine ∧
      after.record.cycles = cpu.record.cycles + instruction.cycles.toNat ∧
      after.record.instructions = cpu.record.instructions + 1 ∧
      after.instructionSet = cpu.instructionSet ∧ after.halted = false := by
  obtain ⟨host', hstep, -⟩ := cpu.run_step host
  rw [cpu.stepAt_of_defined _ _ hrun hget, performedAt_eq] at hstep
  exact ⟨_, host', hstep, cpu.toMachine.executed_follows instruction, rfl, rfl, rfl, hrun⟩

/-! ## An instruction that shifts its own opcode -/

/-- A shift of the byte at an absolute address, said to be 200 bytes long. -/
def longShift : Instruction where
  opcode := 0x0E
  mnemonic := "ASL"
  mode := .absolute
  cycles := 6
  operation := .asl
  size := 200

/-- Three bytes of memory, read from far beyond their end; the operand is the opcode. -/
def selfShifting : Processor Memory where
  registers := { a := 0x55, p := 0x21, pc := 65535 }
  bus := ⟨#[0x0E, 0, 0], by decide, by decide⟩
  instructionSet := InstructionSet.empty.insert longShift (by decide)

theorem step_selfShifting :
    ∃ (after : Processor Memory) (host' : Host SimulatedTime),
      selfShifting.step.run ⟨{}, {}⟩ = ((.ok (), after), host') ∧
      (after.bus.get 0).toNat = 28 ∧ after.registers.flag .carry = false ∧
      after.registers.pc.toNat = 2 ∧ after.record.cycles = 6 := by
  have hget : selfShifting.instructionSet.get
      (selfShifting.bus.get selfShifting.registers.pc.toNat) = some longShift := by
    show (InstructionSet.empty.insert longShift (by decide)).get 0x0E = _
    rw [InstructionSet.get_insert]
    rfl
  obtain ⟨after, host', hstep, hfollows, hcycles, -⟩ :=
    step_follows_reference selfShifting (⟨{}, {}⟩ : Host SimulatedTime) rfl hget
  exact ⟨after, host', hstep, hfollows.cell 0 (by decide), hfollows.flag .carry,
    hfollows.pass (by decide), hcycles⟩

end Mos6502.Processor

import Mos6502.Instruction.Standard
import Mos6502.Proofs.Machine.Residue
import Mos6502.Proofs.Processor.Flat

/-!
# The program counter and its residue

A processor on flat memory does not care by which multiple of the memory's size its program counter
is off, and its own instructions keep it in the memory.

**The residue is all that matters** (`stepAt_withPc`). Two processors that differ in their program
counters only, by a multiple of the size, step alike. After a step that succeeds nothing is left of
the difference, and after one that fails it is still there and nowhere else.

**The program counter stays in the memory** (`Reached.inMemory`). It is there at the outset, and
nothing but a raw write takes it out. The invariant also says that the memory keeps its size.

Main result: `pc_in_memory_and_residue_decides`.
-/

namespace Mos6502

/-! ## Steps -/

/-- A fault with another program counter in it and in its snapshot. -/
def Fault.withPc (pc : UInt16) : Fault → Fault
  | .undefinedOpcode opcode _ snapshot =>
    .undefinedOpcode opcode pc { snapshot with registers := snapshot.registers.setPc pc }
  | .halted => .halted
  | .clock fault => .clock fault

namespace Processor

variable {τ τ' : Type} [TimeSource τ] [TimeSource τ']

/-- The same processor with another program counter. -/
def withPc (cpu : Processor Memory) (pc : UInt16) : Processor Memory :=
  cpu.modifyRegisters (·.setPc pc)

/-- The end of a step and the end of the same step with the program counter at `pc`. If they succeed
there is no difference left between the processors, but for their moments; if they fail, the faults
and the processors differ in the program counter. -/
def EndAlike (pc : UInt16) (p q : Except Fault Unit × Processor Memory) : Prop :=
  match p.1 with
  | .ok () => q.1 = .ok () ∧ q.2.untimed = p.2.untimed
  | .error fault => q.1 = .error (fault.withPc pc) ∧ q.2.untimed = (p.2.withPc pc).untimed

/-- **Steps depend on the residue.** -/
theorem stepAt_withPc (tracing tracing' : Bool) (now now' : Instant) (cpu : Processor Memory)
    {pc : UInt16} (h : pc.toNat % cpu.bus.size = cpu.registers.pc.toNat % cpu.bus.size) :
    EndAlike pc (cpu.stepAt tracing now) ((cpu.withPc pc).stepAt tracing' now') := by
  have hopcode : (cpu.withPc pc).bus.get (cpu.withPc pc).registers.pc.toNat =
      cpu.bus.get cpu.registers.pc.toNat := cpu.bus.get_congr h
  cases hrun : cpu.halted with
  | true =>
    rw [cpu.stepAt_of_halted _ _ hrun, (cpu.withPc pc).stepAt_of_halted _ _ hrun]
    exact ⟨rfl, rfl⟩
  | false =>
    cases hget : cpu.instructionSet.get (cpu.bus.get cpu.registers.pc.toNat) with
    | none =>
      have hget' := hget
      rw [← hopcode] at hget'
      rw [cpu.stepAt_of_get_eq_none _ _ hrun hget,
        (cpu.withPc pc).stepAt_of_get_eq_none _ _ hrun hget', hopcode]
      exact ⟨rfl, rfl⟩
    | some instruction =>
      have hget' := hget
      rw [← hopcode] at hget'
      have hmachine : (cpu.withPc pc).toMachine.executed instruction =
          cpu.toMachine.executed instruction :=
        cpu.toMachine.executed_withPc instruction h
      rw [cpu.stepAt_of_get_eq_some _ _ hrun hget,
        (cpu.withPc pc).stepAt_of_get_eq_some _ _ hrun hget', hmachine]
      exact ⟨rfl, rfl⟩

/-! ## Reachable processors -/

/-- What can become of a new processor if its program counter is never written raw, on hosts of one
kind. -/
inductive Reached (τ : Type) [TimeSource τ] (memory : Memory) (instrs : InstructionSet) :
    Processor Memory → Prop
  | new : Reached τ memory instrs { bus := memory, instructionSet := instrs }
  | step {cpu : Processor Memory} (host : Host τ) (h : Reached τ memory instrs cpu) :
    Reached τ memory instrs (cpu.step.run host).1.2
  /-- A run for a budget that ends, whether or not a step of it fails. -/
  | spend {cpu cpu' : Processor Memory} {limit budget : Nat} {host host' : Host τ}
    {result : Except Fault Nat} (h : Reached τ memory instrs cpu)
    (hspend : cpu.spend limit budget host = some ((result, cpu'), host')) :
    Reached τ memory instrs cpu'
  | setPc {cpu : Processor Memory} (pc : UInt16) (h : Reached τ memory instrs cpu) :
    Reached τ memory instrs (cpu.setPc pc)
  /-- Cells and flags change in any way. -/
  | modifyRegisters {cpu : Processor Memory} (f : Registers → Registers)
    (hpc : ∀ regs, (f regs).pc = regs.pc) (h : Reached τ memory instrs cpu) :
    Reached τ memory instrs (cpu.modifyRegisters f)
  /-- Bytes of the memory change in any way. -/
  | modifyMemory {cpu : Processor Memory} (f : Memory → Memory)
    (hsize : ∀ memory, (f memory).size = memory.size) (h : Reached τ memory instrs cpu) :
    Reached τ memory instrs { cpu with bus := f cpu.bus }

/-- The memory has `size` bytes and the program counter is an address of it. -/
structure InMemory (size : Nat) (cpu : Processor Memory) : Prop where
  size_eq : cpu.bus.size = size
  pc_lt : cpu.registers.pc.toNat < size

variable {size : Nat} {cpu : Processor Memory} {now : Instant}
  {p : Except Fault Unit × Processor Memory}

/-- **A step that succeeds reduces the program counter**, wherever it was. -/
theorem FlatStep.pc_lt (h : FlatStep now cpu p) (hok : p.1 = .ok ()) :
    p.2.registers.pc.toNat < cpu.bus.size := by
  cases h with
  | halted | undefined => cases hok
  | executed instruction =>
    show (cpu.toMachine.executed instruction).registers.pc.toNat < _
    rw [Machine.executed_eq, Machine.toNat_pc_movedTo, Machine.size_operated]
    exact Nat.mod_lt _ cpu.bus.size_pos

theorem FlatStep.inMemory (h : FlatStep now cpu p) (hin : cpu.InMemory size) :
    p.2.InMemory size := by
  have hpc := h.pc_lt
  cases h with
  | halted => exact hin
  | undefined => exact ⟨hin.size_eq, hin.pc_lt⟩
  | executed instruction =>
    have hsize := (cpu.toMachine.executed_follows instruction).size
    exact ⟨hsize.trans hin.size_eq, Nat.lt_of_lt_of_eq (hpc rfl) hin.size_eq⟩

theorem InMemory.step (hin : cpu.InMemory size) (host : Host τ) :
    (cpu.step.run host).1.2.InMemory size := by
  obtain ⟨host', hstep, -⟩ := cpu.run_step host
  rw [hstep]
  exact (cpu.flatStep _ _).inMemory hin

/-- A run for a budget keeps what a step keeps. -/
theorem spendUpTo_keeps {P : Processor Memory → Prop}
    (hstep : ∀ (cpu : Processor Memory) (host : Host τ), P cpu → P (cpu.step.run host).1.2)
    (total limit : Nat) :
    ∀ {cpu : Processor Memory} {host : Host τ}
      {p : (Except Fault Unit × Processor Memory) × Host τ},
      P cpu → spendUpTo total limit cpu host = some p → P p.1.2 := by
  induction limit with
  | zero =>
    intro cpu host p h hspend
    unfold spendUpTo at hspend
    split at hspend
    · cases hspend
      exact h
    · cases hspend
  | succ limit ih =>
    intro cpu host p h hspend
    by_cases hspent : total ≤ cpu.record.cycles
    · rw [spendUpTo_of_le hspent] at hspend
      cases hspend
      exact h
    · rw [spendUpTo_of_lt (Nat.lt_of_not_le hspent)] at hspend
      have hnext := hstep cpu host h
      generalize cpu.step.run host = q at hspend hnext
      obtain ⟨⟨result, cpu₁⟩, host₁⟩ := q
      cases result with
      | ok _ => exact ih hnext hspend
      | error fault =>
        cases hspend
        exact hnext

/-- **The program counter stays in the memory.** -/
theorem Reached.inMemory {memory : Memory} {instrs : InstructionSet}
    (h : Reached τ memory instrs cpu) : cpu.InMemory memory.size := by
  induction h with
  | new => exact ⟨rfl, memory.size_pos⟩
  | step host _ ih => exact ih.step host
  | spend _ hspend ih =>
    obtain ⟨p, hrun, heq⟩ := Option.map_eq_some_iff.mp hspend
    cases heq
    exact spendUpTo_keeps (fun _ host hin => hin.step host) _ _ ih hrun
  | @setPc cpu pc _ ih =>
    refine ⟨ih.size_eq, ?_⟩
    show ((cpu.toMachine.movedTo pc.toNat).registers.pc).toNat < _
    rw [Machine.toNat_pc_movedTo, ih.size_eq]
    exact Nat.mod_lt _ memory.size_pos
  | modifyRegisters f hpc _ ih =>
    refine ⟨ih.size_eq, ?_⟩
    show (f _).pc.toNat < _
    rw [hpc]
    exact ih.pc_lt
  | modifyMemory f hsize _ ih => exact ⟨(hsize _).trans ih.size_eq, ih.pc_lt⟩

/-- **The program counter is reduced, and only its residue matters.**

A processor that is reached without raw writes to its program counter has it in its memory, and no
address that is reduced into the memory loses a bit as a program counter. After a raw write of any
value a step that succeeds brings it back.

Any two processors that differ in their program counters only, by a multiple of the memory's size,
step alike. -/
theorem pc_in_memory_and_residue_decides (memory : Memory) (instrs : InstructionSet) :
    (∀ cpu : Processor Memory, Reached τ memory instrs cpu →
      cpu.registers.pc.toNat < memory.size ∧ cpu.bus.size = memory.size ∧
      (∀ address : Nat, (Bus.reduce cpu.bus address).toUInt16.toNat = Bus.reduce cpu.bus address) ∧
      ∀ (raw : UInt16) (host : Host τ), ((cpu.withPc raw).step.run host).1.1 = .ok () →
        ((cpu.withPc raw).step.run host).1.2.registers.pc.toNat < memory.size) ∧
    ∀ (cpu : Processor Memory) (pc : UInt16),
      pc.toNat % cpu.bus.size = cpu.registers.pc.toNat % cpu.bus.size →
      ∀ (host : Host τ) (host' : Host τ'),
        EndAlike pc (cpu.step.run host).1 ((cpu.withPc pc).step.run host').1 := by
  constructor
  · intro cpu h
    have hin := h.inMemory
    refine ⟨hin.pc_lt, hin.size_eq, cpu.bus.toNat_reduce, ?_⟩
    intro raw host hok
    obtain ⟨host', hstep, -⟩ := (cpu.withPc raw).run_step host
    rw [hstep] at hok ⊢
    exact Nat.lt_of_lt_of_eq (((cpu.withPc raw).flatStep _ _).pc_lt hok) hin.size_eq
  · intro cpu pc h host host'
    obtain ⟨_, hstep, -⟩ := cpu.run_step host
    obtain ⟨_, hstep', -⟩ := (cpu.withPc pc).run_step host'
    rw [hstep, hstep']
    exact cpu.stepAt_withPc _ _ _ _ h

/-! ## A program counter far beyond its memory -/

/-- Three bytes with an addition whose operand, at address 65535, is its own opcode. -/
def ownOperand : Processor Memory where
  bus := ⟨#[0x6D, 0xFF, 0xFF], by decide, by decide⟩
  instructionSet := .standard

theorem residue_decides_ownOperand :
    ((ownOperand.setPc 65533).step.run (⟨{}, {}⟩ : Host SimulatedTime)).1.2.registers.pc.toNat <
      3 ∧
    EndAlike 65535 (ownOperand.step.run (⟨{}, {}⟩ : Host SimulatedTime)).1
      ((ownOperand.withPc 65535).step.run (⟨⟨7⟩, {}⟩ : Host SimulatedTime)).1 ∧
    ((ownOperand.withPc 65535).step.run (⟨⟨7⟩, {}⟩ : Host SimulatedTime)).1.2.registers =
      { a := 0x6D, pc := 0 } ∧
    EndAlike 65533 ((ownOperand.withPc 1).step.run (⟨{}, {}⟩ : Host SimulatedTime)).1
      ((ownOperand.withPc 65533).step.run (⟨⟨7⟩, {}⟩ : Host SimulatedTime)).1 ∧
    ((ownOperand.withPc 65533).step.run (⟨⟨7⟩, {}⟩ : Host SimulatedTime)).1.1 =
      .error (.undefinedOpcode 0xFF 65533 ⟨{ pc := 65533 }, 0, 0, [0x6D, 0xFF, 0xFF]⟩) := by
  obtain ⟨hreached, hresidue⟩ := @pc_in_memory_and_residue_decides SimulatedTime SimulatedTime _ _
    ownOperand.bus .standard
  have hlt := (hreached _ (.step ⟨{}, {}⟩ (.setPc 65533 .new))).1
  exact ⟨hlt, hresidue ownOperand 65535 rfl _ _, rfl,
    hresidue (ownOperand.withPc 1) 65533 rfl _ _, rfl⟩

end Processor

end Mos6502

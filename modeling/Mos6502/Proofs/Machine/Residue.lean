import Mathlib.Data.Nat.ModEq
import Mos6502.Proofs.Machine.Reference

/-!
# Machines that differ in a multiple of the memory's size

Whatever a machine looks up at its program counter, it looks up modulo the size of the memory: the
bytes behind the opcode, an immediate operand, and the next address. Some of these are reduced by
the machine and some by the memory, and the moduli agree.

Main result: `executed_withPc`, an instruction leaves no trace of a program counter that was off by
a multiple of the size.
-/

namespace Mos6502

/-! ## Congruent addresses -/

namespace Memory

variable (memory : Memory)

theorem get_congr {address other : Nat} (h : address % memory.size = other % memory.size) :
    memory.get address = memory.get other := by
  unfold get
  simp only [show address % memory.data.size = other % memory.data.size from h]

theorem get_add_congr {address other : Nat} (h : address % memory.size = other % memory.size)
    (offset : Nat) : memory.get (address + offset) = memory.get (other + offset) :=
  memory.get_congr (Nat.ModEq.add_right offset h)

/-- Where the operand is, from the two bytes behind the opcode. -/
theorem operandAt_eq (mode : AddressingMode) (regs : Registers) :
    memory.operandAt mode regs =
      let low := memory.get (regs.pc.toNat + 1)
      let word := Bus.littleEndian low (memory.get (regs.pc.toNat + 2))
      match mode with
      | .implied => .none
      | .accumulator => .accumulator
      | .immediate => .address (Bus.reduce memory (regs.pc.toNat + 1))
      | .zeroPage => .address (Bus.reduce memory low.toNat)
      | .zeroPageX | .indirectX => .address (Bus.reduce memory (low + regs.x).toNat)
      | .absolute => .address (Bus.reduce memory word.toNat)
      | .absoluteX => .address (Bus.reduce memory (word.toNat + regs.x.toNat))
      | .absoluteY => .address (Bus.reduce memory (word.toNat + regs.y.toNat))
      | .indirectY =>
        .address (Bus.reduce memory ((Bus.littleEndian (memory.get low.toNat)
          (memory.get (low + 1).toNat)).toNat + regs.y.toNat)) := by
  cases mode <;> rfl

/-- **Operands are found in the same places**, in all modes. -/
theorem operandAt_setPc (mode : AddressingMode) (regs : Registers) {pc : UInt16}
    (h : pc.toNat % memory.size = regs.pc.toNat % memory.size) :
    memory.operandAt mode (regs.setPc pc) = memory.operandAt mode regs := by
  have himmediate : Bus.reduce memory (pc.toNat + 1) = Bus.reduce memory (regs.pc.toNat + 1) :=
    Nat.ModEq.add_right 1 h
  have hlow := memory.get_add_congr h 1
  have hhigh := memory.get_add_congr h 2
  simp only [operandAt_eq, Registers.setPc, himmediate, hlow, hhigh]

end Memory

/-! ## Machines -/

namespace Machine

variable (machine : Machine Memory)

/-- The same machine with another program counter. -/
def withPc (pc : UInt16) : Machine Memory :=
  { machine with registers := machine.registers.setPc pc }

theorem valueAt_withPc (pc : UInt16) (operand : Operand) :
    (machine.withPc pc).valueAt operand = machine.valueAt operand := by
  cases operand <;> rfl

theorem written_withPc (pc : UInt16) (operand : Operand) (byte : Option UInt8) :
    (machine.withPc pc).written operand byte = (machine.written operand byte).withPc pc := by
  cases byte with
  | none => rfl
  | some b => cases operand <;> rfl

/-- The machine after an operation on an operand, before the program counter moves. -/
def operated (operation : Operation) (operand : Operand) : Machine Memory :=
  let value := machine.valueAt operand
  let updated : Machine Memory :=
    { machine with registers := updatedRegisters operation machine.registers value }
  updated.written operand (writtenByte operation machine.registers value)

theorem executed_eq (instruction : Instruction) :
    machine.executed instruction =
      (machine.operated instruction.operation
        (machine.bus.operandAt instruction.mode machine.registers)).movedTo
          (machine.nextAddress instruction) :=
  rfl

theorem size_operated (operation : Operation) (operand : Operand) :
    (machine.operated operation operand).bus.size = machine.bus.size :=
  size_written _ operand _

theorem operated_withPc (pc : UInt16) (operation : Operation) (operand : Operand) :
    (machine.withPc pc).operated operation operand =
      (machine.operated operation operand).withPc pc := by
  have hregisters (value : UInt8) : updatedRegisters operation (machine.withPc pc).registers value =
      (updatedRegisters operation machine.registers value).setPc pc := by
    cases operation <;> rfl
  have hbyte (value : UInt8) : writtenByte operation (machine.withPc pc).registers value =
      writtenByte operation machine.registers value := by
    cases operation <;> rfl
  simp only [operated, valueAt_withPc, hregisters, hbyte]
  exact written_withPc ⟨updatedRegisters operation machine.registers (machine.valueAt operand),
    machine.bus⟩ pc operand _

theorem movedTo_withPc_congr (pc : UInt16) {address other : Nat}
    (h : address % machine.bus.size = other % machine.bus.size) :
    (machine.withPc pc).movedTo address = machine.movedTo other := by
  have hreduce : Bus.reduce machine.bus address = Bus.reduce machine.bus other := h
  unfold movedTo
  rw [← hreduce]
  rfl

theorem nextAddress_withPc_congr (instruction : Instruction) {pc : UInt16}
    (h : pc.toNat % machine.bus.size = machine.registers.pc.toNat % machine.bus.size) :
    (machine.withPc pc).nextAddress instruction % machine.bus.size =
      machine.nextAddress instruction % machine.bus.size := by
  by_cases hjump : instruction.operation = .jmp
  · unfold nextAddress
    rw [hjump]
    exact congrArg₂ (fun low high => (Bus.littleEndian low high).toNat % machine.bus.size)
      (machine.bus.get_add_congr h 1) (machine.bus.get_add_congr h 2)
  · rw [nextAddress_eq_of_ne_jmp _ hjump, nextAddress_eq_of_ne_jmp _ hjump]
    exact Nat.ModEq.add_right _ h

/-- **An instruction makes the same machine** of both, the program counter included. -/
theorem executed_withPc (instruction : Instruction) {pc : UInt16}
    (h : pc.toNat % machine.bus.size = machine.registers.pc.toNat % machine.bus.size) :
    (machine.withPc pc).executed instruction = machine.executed instruction := by
  have hoperand : (machine.withPc pc).bus.operandAt instruction.mode
      (machine.withPc pc).registers =
        machine.bus.operandAt instruction.mode machine.registers :=
    machine.bus.operandAt_setPc instruction.mode machine.registers h
  rw [executed_eq, executed_eq, hoperand, operated_withPc]
  apply movedTo_withPc_congr
  rw [size_operated]
  exact machine.nextAddress_withPc_congr instruction h

end Machine

end Mos6502

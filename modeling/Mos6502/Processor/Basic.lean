import Mos6502.Disassembly
import Mos6502.Instruction.Set
import Mos6502.Machine.Execute
import Mos6502.Processor.Fault
import Mos6502.Processor.Record

/-!
# The processor

A machine with the instruction set it decodes by, the record of what it executed, and whether an
undefined opcode has halted it.
-/

namespace Mos6502

/-- A processor on a bus. A new one has registers of zero and has executed nothing. -/
structure Processor (β : Type) extends Machine β where
  instructionSet : InstructionSet
  record : RunRecord := {}
  halted : Bool := false

namespace Processor

variable {β : Type}

/-- Act on the machine and leave the rest of the processor alone. -/
def onMachine {α : Type} (cpu : Processor β) (action : StateM (Machine β) α) : α × Processor β :=
  let ⟨machine, instructionSet, record, halted⟩ := cpu
  let (value, machine) := action.run machine
  (value, ⟨machine, instructionSet, record, halted⟩)

/-- Use the bus and leave the rest of the processor alone. -/
def onBus {α : Type} (cpu : Processor β) (action : StateM β α) : α × Processor β :=
  cpu.onMachine (Machine.onBus action)

/-- Change the registers. A program counter set this way is not reduced. -/
def modifyRegisters (cpu : Processor β) (f : Registers → Registers) : Processor β :=
  (cpu.onMachine (Machine.modifyRegisters f)).2

variable [Bus β]

/-- Set the program counter, reduced into the bus. -/
def setPc (cpu : Processor β) (pc : UInt16) : Processor β :=
  (cpu.onMachine (Machine.goTo pc.toNat)).2

/-! ## Looking into a processor -/

/-- Registers, counters and a copy of the memory. -/
def snapshot (cpu : Processor β) : Snapshot × Processor β :=
  let (memory, cpu) := cpu.onBus Bus.readAll
  ({ registers := cpu.registers
     cycles := cpu.record.cycles
     instructions := cpu.record.instructions
     memory }, cpu)

/-- The line of the instruction at the program counter. All bytes behind the opcode that belong
to the instruction are read, whether or not its mode uses them. -/
def disassemble (cpu : Processor β) (instruction : Instruction) : Disassembly × Processor β :=
  let (operand, cpu) := cpu.onMachine
    ((List.range (instruction.size.toNat - 1)).mapM fun k => Machine.fetch (k + 1))
  ({ registers := cpu.registers, instruction, operand }, cpu)

end Processor

end Mos6502

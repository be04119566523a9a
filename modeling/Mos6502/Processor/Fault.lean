import Mos6502.Snapshot
import Mos6502.Clock.Fault

/-!
# Faults of a processor

Why an instruction was not executed. An undefined opcode halts the processor; the fault says
where, and carries a snapshot taken at that moment.
-/

namespace Mos6502

/-- Why an instruction, or a run of them, was not executed. -/
inductive Fault where
  /-- The byte at the program counter is no instruction. -/
  | undefinedOpcode (opcode : UInt8) (pc : UInt16) (snapshot : Snapshot)
  /-- The processor was halted before. -/
  | halted
  /-- The clock that paces the processor failed. -/
  | clock (fault : ClockFault)
  deriving DecidableEq, Repr

/-- The text of a fault. -/
def Fault.message : Fault → String
  | undefinedOpcode opcode pc _ =>
    s!"invalid opcode ${Hexadecimal.byte opcode} at ${Hexadecimal.word pc}"
  | halted => "CPU is halted"
  | clock fault => fault.message

end Mos6502

import Mos6502.Hexadecimal
import Mos6502.Addressing.Mode

/-!
# Errors of a setup

What can be wrong with the parts of a machine before it runs: its instructions, the size of
its memory, the frequencies of its clock.
-/

namespace Mos6502

/-- Why a part of a machine is refused. -/
inductive SetupError where
  /-- An opcode has a definition already, whose text is `existing`. -/
  | duplicateOpcode (opcode : UInt8) (existing : String)
  /-- The operation of an instruction does not allow its addressing mode. -/
  | unsupportedMode (opcode : UInt8) (mnemonic : String) (mode : AddressingMode)
  /-- A memory is empty, or larger than the program counter can reach. -/
  | invalidMemorySize (size : Nat)
  /-- A frequency of a clock is zero. -/
  | invalidFrequency (target tick : UInt64)
  deriving DecidableEq, Repr

/-- The text of an error. -/
def SetupError.message : SetupError → String
  | duplicateOpcode opcode existing =>
    s!"opcode ${Hexadecimal.byte opcode} already defined as: {existing}"
  | unsupportedMode opcode mnemonic mode =>
    s!"opcode ${Hexadecimal.byte opcode}: {mnemonic} does not support {mode.name} addressing"
  | invalidMemorySize size =>
    s!"invalid memory size {size}: must be between 1 and 65536 bytes"
  | invalidFrequency target tick =>
    s!"invalid clock configuration: target {target} Hz, tick {tick} Hz"

end Mos6502

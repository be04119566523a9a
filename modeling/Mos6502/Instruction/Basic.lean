import Mos6502.Instruction.Operation

/-!
# Instructions

The definition of one opcode: what it is called, where its operand is, what it costs and what
it does.
-/

namespace Mos6502

/-- The definition of an opcode. -/
structure Instruction where
  opcode : UInt8
  mnemonic : String
  mode : AddressingMode
  /-- The cycles one execution takes. -/
  cycles : UInt8
  operation : Operation
  /-- The bytes the instruction takes, its opcode included. -/
  size : UInt8 := 1 + mode.operandLength
  deriving DecidableEq, Repr

namespace Instruction

/-- One line: opcode, mnemonic, mode, cycles and size. -/
def text (instruction : Instruction) : String :=
  s!"${Hexadecimal.byte instruction.opcode} {instruction.mnemonic} {instruction.mode.name} " ++
    s!"({instruction.cycles} cycles, {instruction.size} bytes)"

/-- Whether an instruction is called `mnemonic`, up to the case of the letters A to Z. -/
def isCalled (instruction : Instruction) (mnemonic : String) : Bool :=
  instruction.mnemonic.toList.map Char.toLower == mnemonic.toList.map Char.toLower

end Instruction

end Mos6502

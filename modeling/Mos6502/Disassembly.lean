import Mos6502.Registers
import Mos6502.Instruction.Basic

/-!
# Disassembly

One line for an instruction about to be executed: where it is, its bytes, what they mean, and
the registers before it.
-/

namespace Mos6502

/-- An instruction in its place. -/
structure Disassembly where
  /-- The registers before the instruction; their program counter says where it is. -/
  registers : Registers
  instruction : Instruction
  /-- The bytes behind the opcode. -/
  operand : List UInt8
  deriving DecidableEq, Repr

namespace Disassembly

/-- A text with blanks behind it up to a width. -/
def column (width : Nat) (text : String) : String :=
  String.ofList (text.toList.rightpad width ' ')

/-- The opcode and the bytes behind it. -/
def bytesText (line : Disassembly) : String :=
  Hexadecimal.byte line.instruction.opcode ++
    String.join (line.operand.map fun b => " " ++ Hexadecimal.byte b)

/-- The operand as its mode writes it. -/
def operandText (line : Disassembly) : String :=
  line.instruction.mode.operandText line.operand

/-- The text of a line. -/
def text (line : Disassembly) : String :=
  s!"{Hexadecimal.word line.registers.pc}  {column 8 line.bytesText}  " ++
    s!"{line.instruction.mnemonic} {column 10 line.operandText}  {line.registers.text}"

end Disassembly

end Mos6502

import Mos6502.Hexadecimal

/-!
# Addressing modes

How an instruction says where its operand is. A mode fixes the number of operand bytes behind
the opcode and the way they are written in a disassembly.
-/

namespace Mos6502

/-- An addressing mode. -/
inductive AddressingMode where
  /-- No operand, as in `NOP`. -/
  | implied
  /-- The accumulator, as in `ASL A`. -/
  | accumulator
  /-- The byte behind the opcode, as in `ADC #$10`. -/
  | immediate
  /-- An address in the zero page, as in `ADC $80`. -/
  | zeroPage
  /-- An address in the zero page plus X, within the zero page, as in `ADC $80,X`. -/
  | zeroPageX
  /-- An address of sixteen bits, low byte first, as in `JMP $1234`. -/
  | absolute
  /-- An address of sixteen bits plus X, as in `ADC $1234,X`. -/
  | absoluteX
  /-- An address of sixteen bits plus Y, as in `ADC $1234,Y`. -/
  | absoluteY
  /-- An address in the zero page plus X, within the zero page, as in `ADC ($40,X)`. -/
  | indirectX
  /-- A pointer in the zero page, to which Y is added, as in `ADC ($40),Y`. -/
  | indirectY
  deriving DecidableEq, Repr

namespace AddressingMode

/-- Every mode once. -/
def all : List AddressingMode :=
  [implied, accumulator, immediate, zeroPage, zeroPageX, absolute, absoluteX, absoluteY,
    indirectX, indirectY]

/-- The name of a mode in texts. -/
def name : AddressingMode → String
  | implied => "implied"
  | accumulator => "accumulator"
  | immediate => "immediate"
  | zeroPage => "zeropage"
  | zeroPageX => "zeropage,X"
  | absolute => "absolute"
  | absoluteX => "absolute,X"
  | absoluteY => "absolute,Y"
  | indirectX => "indirect,X"
  | indirectY => "indirect,Y"

/-- The number of operand bytes behind the opcode. -/
def operandLength : AddressingMode → UInt8
  | implied | accumulator => 0
  | immediate | zeroPage | zeroPageX | indirectX | indirectY => 1
  | absolute | absoluteX | absoluteY => 2

/-! ## The operand field -/

/-- The first operand byte in hexadecimal, or question marks if it is missing. -/
def byteField : List UInt8 → String
  | [] => "??"
  | byte :: _ => Hexadecimal.byte byte

/-- The first two operand bytes as an address, or question marks if one is missing. -/
def wordField : List UInt8 → String
  | low :: high :: _ => Hexadecimal.byte high ++ Hexadecimal.byte low
  | _ => "????"

/-- The operand field of a disassembled instruction, given the bytes behind its opcode. -/
def operandText (mode : AddressingMode) (operand : List UInt8) : String :=
  match mode with
  | implied => ""
  | accumulator => "A"
  | immediate => "#$" ++ byteField operand
  | zeroPage => "$" ++ byteField operand
  | zeroPageX => "$" ++ byteField operand ++ ",X"
  | absolute => "$" ++ wordField operand
  | absoluteX => "$" ++ wordField operand ++ ",X"
  | absoluteY => "$" ++ wordField operand ++ ",Y"
  | indirectX => "($" ++ byteField operand ++ ",X)"
  | indirectY => "($" ++ byteField operand ++ "),Y"

end AddressingMode

end Mos6502

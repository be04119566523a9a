import Mos6502.Addressing.Mode

/-!
# Operations

What an instruction does, apart from where its operand is.
-/

namespace Mos6502

/-- An operation of the processor. -/
inductive Operation where
  /-- Add to the accumulator with carry. -/
  | adc
  /-- Conjunction with the accumulator. -/
  | and
  /-- Shift one bit to the left. -/
  | asl
  /-- Jump. -/
  | jmp
  /-- Load the accumulator. -/
  | lda
  /-- Do nothing. -/
  | nop
  /-- Store the accumulator. -/
  | sta
  deriving DecidableEq, Repr

namespace Operation

/-- The modes that find an operand in memory other than the byte behind the opcode. -/
def memoryModes : List AddressingMode :=
  [.zeroPage, .zeroPageX, .absolute, .absoluteX, .absoluteY, .indirectX, .indirectY]

/-- The modes an operation can be used with. -/
def modes : Operation → List AddressingMode
  | adc | and | lda => .immediate :: memoryModes
  | sta => memoryModes
  | asl => [.accumulator, .zeroPage, .zeroPageX, .absolute, .absoluteX]
  | jmp => [.absolute]
  | nop => [.implied]

/-- Whether an operation can be used with a mode. -/
def allows (operation : Operation) (mode : AddressingMode) : Bool :=
  mode ∈ operation.modes

end Operation

end Mos6502

import Mos6502.Instruction.Set

/-!
# The standard instruction set

The opcodes of the seven operations on the 6502, with their cycles. A crossing of a page costs
nothing extra. No opcode occurs twice and every mode is allowed, so registering them one after
another gives an instruction set (`registerAll_standardInstructions`).
-/

namespace Mos6502

/-! ## Opcodes -/

/-- The instructions of one operation, given the opcode, mode and cycles of each. Their sizes
follow from their modes. -/
def instructionFamily (mnemonic : String) (operation : Operation)
    (encodings : List (UInt8 × AddressingMode × UInt8)) : List Instruction :=
  encodings.map fun (opcode, mode, cycles) => { opcode, mnemonic, mode, cycles, operation }

/-- The standard opcodes, listed by operation. -/
def standardInstructions : List Instruction :=
  instructionFamily "ADC" .adc
    [(0x69, .immediate, 2), (0x65, .zeroPage, 3), (0x75, .zeroPageX, 4), (0x6D, .absolute, 4),
      (0x7D, .absoluteX, 4), (0x79, .absoluteY, 4), (0x61, .indirectX, 6), (0x71, .indirectY, 5)] ++
  instructionFamily "AND" .and
    [(0x29, .immediate, 2), (0x25, .zeroPage, 3), (0x35, .zeroPageX, 4), (0x2D, .absolute, 4),
      (0x3D, .absoluteX, 4), (0x39, .absoluteY, 4), (0x21, .indirectX, 6), (0x31, .indirectY, 5)] ++
  instructionFamily "ASL" .asl
    [(0x0A, .accumulator, 2), (0x06, .zeroPage, 5), (0x16, .zeroPageX, 6), (0x0E, .absolute, 6),
      (0x1E, .absoluteX, 7)] ++
  instructionFamily "LDA" .lda
    [(0xA9, .immediate, 2), (0xA5, .zeroPage, 3), (0xB5, .zeroPageX, 4), (0xAD, .absolute, 4),
      (0xBD, .absoluteX, 4), (0xB9, .absoluteY, 4), (0xA1, .indirectX, 6), (0xB1, .indirectY, 5)] ++
  instructionFamily "STA" .sta
    [(0x85, .zeroPage, 3), (0x95, .zeroPageX, 4), (0x8D, .absolute, 4), (0x9D, .absoluteX, 5),
      (0x99, .absoluteY, 5), (0x81, .indirectX, 6), (0x91, .indirectY, 6)] ++
  instructionFamily "JMP" .jmp [(0x4C, .absolute, 3)] ++
  instructionFamily "NOP" .nop [(0xEA, .implied, 2)]

/-! ## The instruction set -/

theorem eq_ok_get {ε α : Type} {result : Except ε α} (h : result.toOption.isSome) :
    result = .ok (result.toOption.get h) := by
  cases result with
  | ok value => rfl
  | error e => cases h

theorem isSome_registerAll_standardInstructions :
    (InstructionSet.empty.registerAll standardInstructions).toOption.isSome := by
  decide +kernel

/-- The instruction set of the standard opcodes. -/
def InstructionSet.standard : InstructionSet :=
  (empty.registerAll standardInstructions).toOption.get isSome_registerAll_standardInstructions

theorem registerAll_standardInstructions :
    InstructionSet.empty.registerAll standardInstructions = .ok .standard :=
  eq_ok_get isSome_registerAll_standardInstructions

end Mos6502

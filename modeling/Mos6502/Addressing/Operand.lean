import Mos6502.Registers
import Mos6502.Memory.Bus
import Mos6502.Addressing.Mode

/-!
# Operands

The place of an instruction's operand, found from the bytes behind the opcode. Two moduli meet
here: additions in the zero page stay within its 256 addresses, and every finished address is
reduced modulo the size of the memory. An index is added to an address of sixteen bits without
a carry being lost, so only the second modulus applies to the sum.
-/

namespace Mos6502

/-- Where the operand of an instruction is. -/
inductive Operand where
  /-- The instruction has no operand. -/
  | none
  /-- In the accumulator. -/
  | accumulator
  /-- In memory, at an address below its size. -/
  | address (address : Nat)
  deriving DecidableEq, Repr

namespace AddressingMode

variable {β : Type} [Bus β]

/-- Read the two bytes behind the opcode at `pc` as an address. -/
def absoluteAddress (pc : UInt16) : StateM β UInt16 := do
  let low ← Bus.read (pc.toNat + 1)
  let high ← Bus.read (pc.toNat + 2)
  return Bus.littleEndian low high

/-- Read a pointer of the zero page. Its second byte is in the zero page too. -/
def zeroPagePointer (address : UInt8) : StateM β UInt16 := do
  let low ← Bus.readZeroPage address
  let high ← Bus.readZeroPage (address + 1)
  return Bus.littleEndian low high

/-- Reduce an address into the bus and make it an operand. -/
def inMemory (address : Nat) : StateM β Operand := do
  return .address (Bus.reduce (← get) address)

/-- Find the operand of the instruction at the program counter. -/
def locate (mode : AddressingMode) (regs : Registers) : StateM β Operand := do
  match mode with
  | implied => return .none
  | accumulator => return .accumulator
  | immediate => inMemory (regs.pc.toNat + 1)
  | zeroPage =>
    let address ← Bus.read (regs.pc.toNat + 1)
    inMemory address.toNat
  | zeroPageX | indirectX =>
    let address ← Bus.read (regs.pc.toNat + 1)
    inMemory (address + regs.x).toNat
  | absolute =>
    let address ← absoluteAddress regs.pc
    inMemory address.toNat
  | absoluteX =>
    let address ← absoluteAddress regs.pc
    inMemory (address.toNat + regs.x.toNat)
  | absoluteY =>
    let address ← absoluteAddress regs.pc
    inMemory (address.toNat + regs.y.toNat)
  | indirectY =>
    let pointer ← Bus.read (regs.pc.toNat + 1)
    let address ← zeroPagePointer pointer
    inMemory (address.toNat + regs.y.toNat)

end AddressingMode

end Mos6502

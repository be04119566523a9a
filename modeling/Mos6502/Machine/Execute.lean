import Mos6502.Instruction.Basic
import Mos6502.Machine.Basic

/-!
# Executing an instruction

What each operation does to the registers, as a function on them, and the order in which an
instruction uses the machine: it finds its operand, reads it, updates the registers, writes the
result, and moves the program counter last. A store does not read its target. A jump reads its
own target address and pays no heed to the size of the instruction.

The order is written down once, for any actions of the kind (`Actions.execute`). A machine gives its
own (`Machine.execute`).
-/

namespace Mos6502

namespace Registers

/-! ## Updates of the registers -/

/-- Add a value and the carry to the accumulator. Decimal mode has no effect. -/
def addWithCarry (regs : Registers) (value : UInt8) : Registers :=
  let carry : UInt16 := if regs.flag .carry then 1 else 0
  let sum := regs.a.toUInt16 + value.toUInt16 + carry
  let result := sum.toUInt8
  let flagged := ((regs.withCarryOf sum).withOverflowOf regs.a value result).withSignOf result
  flagged.set .a result

/-- Load a value into the accumulator. -/
def loadAccumulator (regs : Registers) (value : UInt8) : Registers :=
  (regs.withSignOf value).set .a value

/-- The flags after `value` was shifted one bit to the left. -/
def withShiftOf (regs : Registers) (value : UInt8) : Registers :=
  (regs.setFlag .carry (signBit value ≠ 0)).withSignOf (value <<< 1)

end Registers

/-! ## Actions -/

/-- The actions out of which instructions are made. What they act on is left open. -/
structure Actions (m : Type → Type) where
  registers : m Registers
  modifyRegisters (f : Registers → Registers) : m Unit
  fetch (offset : Nat) : m UInt8
  locate (mode : AddressingMode) : m Operand
  load (operand : Operand) : m UInt8
  store (operand : Operand) (value : UInt8) : m Unit
  goTo (address : Nat) : m Unit
  advance (size : UInt8) : m Unit

namespace Actions

variable {m : Type → Type} [Monad m] (actions : Actions m)

/-! ## Operations -/

/-- The value of the operand of the instruction at the program counter. -/
def loadOperand (mode : AddressingMode) : m UInt8 := do
  actions.load (← actions.locate mode)

/-- Shift the operand one bit to the left, in its place. -/
def shiftLeft (mode : AddressingMode) : m Unit := do
  let operand ← actions.locate mode
  let value ← actions.load operand
  actions.modifyRegisters (·.withShiftOf value)
  actions.store operand (value <<< 1)

/-- Go to the address in the two bytes behind the opcode. -/
def jump : m Unit := do
  let low ← actions.fetch 1
  let high ← actions.fetch 2
  actions.goTo (Bus.littleEndian low high).toNat

/-- Execute the instruction at the program counter. -/
def execute (instruction : Instruction) : m Unit := do
  match instruction.operation with
  | .adc =>
    let value ← actions.loadOperand instruction.mode
    actions.modifyRegisters (·.addWithCarry value)
    actions.advance instruction.size
  | .and =>
    let value ← actions.loadOperand instruction.mode
    actions.modifyRegisters fun regs => regs.loadAccumulator (regs.a &&& value)
    actions.advance instruction.size
  | .asl =>
    actions.shiftLeft instruction.mode
    actions.advance instruction.size
  | .jmp => actions.jump
  | .lda =>
    let value ← actions.loadOperand instruction.mode
    actions.modifyRegisters (·.loadAccumulator value)
    actions.advance instruction.size
  | .nop => actions.advance instruction.size
  | .sta =>
    let operand ← actions.locate instruction.mode
    actions.store operand (← actions.registers).a
    actions.advance instruction.size

end Actions

namespace Machine

variable {β : Type} [Bus β]

/-- What the actions do to a machine. -/
@[reducible]
def actions : Actions (StateM (Machine β)) where
  registers := return (← get).registers
  modifyRegisters := modifyRegisters
  fetch := fetch
  locate := locate
  load := load
  store := store
  goTo := goTo
  advance := advance

/-- Execute the instruction at the program counter. -/
def execute (instruction : Instruction) : StateM (Machine β) Unit :=
  actions.execute instruction

end Machine

end Mos6502

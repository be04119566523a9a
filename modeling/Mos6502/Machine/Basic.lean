import Mos6502.Registers
import Mos6502.Memory.Bus
import Mos6502.Addressing.Operand

/-!
# The machine

Registers and a bus: all that an instruction reads or changes. The accesses below are the steps
out of which instructions are made.
-/

namespace Mos6502

/-- Registers and a bus. -/
structure Machine (β : Type) where
  registers : Registers := {}
  bus : β

namespace Machine

variable {β : Type}

/-! ## Registers and bus -/

/-- Change the registers. -/
def modifyRegisters (f : Registers → Registers) : StateM (Machine β) Unit :=
  modify fun ⟨registers, bus⟩ => ⟨f registers, bus⟩

/-- Use the bus. -/
def onBus {α : Type} (action : StateM β α) : StateM (Machine β) α := fun ⟨registers, bus⟩ =>
  let (value, bus) := action.run bus
  (value, ⟨registers, bus⟩)

variable [Bus β]

/-- Read the byte so many places behind the program counter, which is not reduced first. -/
def fetch (offset : Nat) : StateM (Machine β) UInt8 := do
  onBus (Bus.read ((← get).registers.pc.toNat + offset))

/-! ## Operands -/

/-- Find the operand of the instruction at the program counter. -/
def locate (mode : AddressingMode) : StateM (Machine β) Operand := do
  onBus (mode.locate (← get).registers)

/-- The value of an operand. There is a zero where there is no operand. -/
def load : Operand → StateM (Machine β) UInt8
  | .none => return 0
  | .accumulator => return (← get).registers.a
  | .address address => onBus (Bus.read address)

/-- Replace the value of an operand. It is lost where there is no operand. -/
def store (operand : Operand) (value : UInt8) : StateM (Machine β) Unit :=
  match operand with
  | .none => return
  | .accumulator => modifyRegisters (·.set .a value)
  | .address address => onBus (Bus.write address value)

/-! ## The program counter -/

/-- Go to an address, reduced into the bus. -/
def goTo (address : Nat) : StateM (Machine β) Unit :=
  modify fun ⟨registers, bus⟩ => ⟨registers.setPc (Bus.reduce bus address).toUInt16, bus⟩

/-- Go past an instruction of `size` bytes. -/
def advance (size : UInt8) : StateM (Machine β) Unit := do
  goTo ((← get).registers.pc.toNat + size.toNat)

end Machine

end Mos6502

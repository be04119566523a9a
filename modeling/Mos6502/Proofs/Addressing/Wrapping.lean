import Mos6502.Proofs.Machine.Residue
import Mos6502.Proofs.Memory.Lawful
import Mos6502.Proofs.Memory.Number

/-!
# How addresses wrap

Where an operand is, said in whole numbers. Two moduli are used. A sum that has to stay in the zero
page is taken modulo 256, and every finished address modulo the size of the memory, which may be
smaller than the zero page and need not be a power of two. Between the two nothing is lost: an index
is added to an address of sixteen bits as to any number.

**The bytes** (`OperandBytes`). An operand is found by the two bytes behind the opcode and, in one
mode, by a pointer in the zero page. `AddressingMode.operandFrom` says how.

Main result: `locate_wraps`, for every mode, program counter, and memory of any size.
-/

namespace Mos6502

/-! ## Operands from bytes -/

/-- The bytes by which an operand is found. A mode makes use of some of them. -/
structure OperandBytes where
  /-- The byte behind the opcode. -/
  low : UInt8
  /-- The byte behind that one. -/
  high : UInt8
  /-- The byte in the zero page that `low` points to. -/
  pointerLow : UInt8
  /-- The byte behind it, in the zero page too. -/
  pointerHigh : UInt8
  deriving DecidableEq, Repr

namespace AddressingMode

/-- Where the operand is in a memory of `size` bytes, from the bytes by which it is found. -/
def operandFrom (mode : AddressingMode) (regs : Registers) (size : Nat) (bytes : OperandBytes) :
    Operand :=
  let word := bytes.low.toNat + 256 * bytes.high.toNat
  let pointer := bytes.pointerLow.toNat + 256 * bytes.pointerHigh.toNat
  match mode with
  | implied => .none
  | accumulator => .accumulator
  | immediate => .address ((regs.pc.toNat + 1) % size)
  | zeroPage => .address (bytes.low.toNat % size)
  | zeroPageX | indirectX => .address ((bytes.low.toNat + regs.x.toNat) % 256 % size)
  | absolute => .address (word % size)
  | absoluteX => .address ((word + regs.x.toNat) % size)
  | absoluteY => .address ((word + regs.y.toNat) % size)
  | indirectY => .address ((pointer + regs.y.toNat) % size)

/-- The modes that find their operand in the zero page. -/
def inZeroPage (mode : AddressingMode) : Bool :=
  mode ∈ [zeroPage, zeroPageX, indirectX]

variable {mode : AddressingMode} {regs : Registers} {size address : Nat} {bytes : OperandBytes}

theorem operandFrom_lt (hsize : 0 < size)
    (h : mode.operandFrom regs size bytes = .address address) : address < size := by
  cases mode with
  | implied | accumulator => cases h
  | _ =>
    obtain rfl := Operand.address.inj h
    exact Nat.mod_lt _ hsize

/-- Reducing an address into the memory does not lead out of the zero page. -/
theorem operandFrom_lt_of_inZeroPage (hmode : mode.inZeroPage)
    (h : mode.operandFrom regs size bytes = .address address) : address < 256 := by
  have hlow := bytes.low.toNat_lt
  cases mode with
  | zeroPage =>
    obtain rfl := Operand.address.inj h
    exact Nat.lt_of_le_of_lt (Nat.mod_le ..) hlow
  | zeroPageX | indirectX =>
    obtain rfl := Operand.address.inj h
    exact Nat.lt_of_le_of_lt (Nat.mod_le ..) (Nat.mod_lt _ (by decide))
  | _ => exact absurd hmode (by decide)

end AddressingMode

/-! ## Operands in memory -/

namespace Memory

/-- The bytes in memory by which the operand of the instruction at `pc` is found. -/
def operandBytes (memory : Memory) (pc : Nat) : OperandBytes where
  low := memory.get (pc + 1)
  high := memory.get (pc + 2)
  pointerLow := memory.get (memory.get (pc + 1)).toNat
  pointerHigh := memory.get (((memory.get (pc + 1)).toNat + 1) % 256)

/-- Sums of bytes wrap by themselves, and words are wide enough for two bytes. -/
theorem operandAt_eq_operandFrom (memory : Memory) (mode : AddressingMode) (regs : Registers) :
    memory.operandAt mode regs =
      mode.operandFrom regs memory.size (memory.operandBytes regs.pc.toNat) := by
  have hsucc (byte : UInt8) : (byte + 1).toNat = (byte.toNat + 1) % 256 := UInt8.toNat_add byte 1
  rw [operandAt_eq]
  cases mode with
  | implied | accumulator | immediate | zeroPage => rfl
  | zeroPageX | indirectX =>
    simp only [UInt8.toNat_add]
    rfl
  | absolute | absoluteX | absoluteY =>
    simp only [toNat_littleEndian]
    rfl
  | indirectY =>
    simp only [toNat_littleEndian, hsucc]
    rfl

end Memory

/-- **Addresses wrap.** On any lawful bus, an operand is found where `operandFrom` says, from the
bytes that are in the memory behind the bus, whatever the program counter is; and the memory is left
as it is. An address that is found is one of the memory. In the modes of the zero page it is one of
the zero page as well. -/
theorem locate_wraps {β : Type} [Bus β] [LawfulBus β] (bus : β) (mode : AddressingMode)
    (regs : Registers) :
    let memory := ReadableBus.memory bus
    let operand := mode.operandFrom regs memory.size (memory.operandBytes regs.pc.toNat)
    ((mode.locate regs).run bus).1 = operand ∧
      ReadableBus.memory ((mode.locate regs).run bus).2 = memory ∧
      ∀ address, operand = .address address →
        address < memory.size ∧ (mode.inZeroPage → address < min 256 memory.size) := by
  intro memory operand
  have hmirrors := Bus.mirrored_memory.locate mode regs bus
  rw [Memory.run_locate, Memory.operandAt_eq_operandFrom] at hmirrors
  obtain ⟨hoperand, hmemory⟩ := Prod.mk.inj hmirrors
  refine ⟨hoperand.symm, hmemory.symm, fun address haddress => ?_⟩
  have hlt := AddressingMode.operandFrom_lt memory.size_pos haddress
  refine ⟨hlt, fun hmode => ?_⟩
  exact lt_min (AddressingMode.operandFrom_lt_of_inZeroPage hmode haddress) hlt

/-- A pointer at the end of the zero page, in a memory of 200 bytes: its bytes are those at 255 and
0, that is in the cells 55 and 0. -/
example :
    let memory := ((Memory.zeros 200 (by decide) (by decide)).set 1 0xFF).set 55 0x34
    ((AddressingMode.indirectY.locate { y := 0xF0 }).run (memory.set 0 0x12)).1 =
      .address ((0x1234 + 0xF0) % 200) := by
  decide +kernel

end Mos6502

import Mos6502.Machine.Execute
import Mos6502.Memory.Flat

/-!
# The machine on flat memory

Reading a flat memory does not change it, so on a machine with flat memory every access has a
value and a resulting machine that can be written down. The lemmas `run_…` below do so for each
access, and `run_execute` for a whole instruction.
-/

namespace Mos6502

/-! ## Operands -/

namespace Memory

/-- Where the operand of an instruction is. -/
def operandAt (memory : Memory) (mode : AddressingMode) (regs : Registers) : Operand :=
  ((mode.locate regs).run memory).1

theorem run_locate (memory : Memory) (mode : AddressingMode) (regs : Registers) :
    (mode.locate regs).run memory = (memory.operandAt mode regs, memory) := by
  cases mode <;> rfl

theorem reduce_lt (memory : Memory) (address : Nat) : Bus.reduce memory address < memory.size :=
  Nat.mod_lt address memory.size_pos

theorem operandAt_lt {memory : Memory} {mode : AddressingMode} {regs : Registers} {address : Nat}
    (h : memory.operandAt mode regs = .address address) : address < memory.size := by
  cases mode with
  | implied | accumulator => cases h
  | _ =>
    obtain rfl := Operand.address.inj h
    exact memory.reduce_lt _

/-- A reduced address fits into a program counter. -/
theorem toNat_reduce (memory : Memory) (address : Nat) :
    (Bus.reduce memory address).toUInt16.toNat = address % memory.size := by
  have hlt : Bus.reduce memory address < memory.size := memory.reduce_lt address
  have hle : memory.size ≤ 65536 := memory.size_le
  exact UInt16.toNat_ofNat_of_lt (by show _ < 65536; omega)

end Memory

namespace Machine

variable (machine : Machine Memory)

/-! ## Accesses -/

/-- The byte an operand stands for. -/
def valueAt : Operand → UInt8
  | .none => 0
  | .accumulator => machine.registers.a
  | .address address => machine.bus.get address

/-- Replace the byte an operand stands for. -/
def putAt (operand : Operand) (value : UInt8) : Machine Memory :=
  match operand with
  | .none => machine
  | .accumulator => { machine with registers := machine.registers.set .a value }
  | .address address => { machine with bus := machine.bus.set address value }

/-- Replace the byte an operand stands for, if there is a new one. -/
def written (operand : Operand) : Option UInt8 → Machine Memory
  | none => machine
  | some byte => machine.putAt operand byte

/-- Replace the program counter by an address, reduced into the memory. -/
def movedTo (address : Nat) : Machine Memory :=
  { machine with registers := machine.registers.setPc (Bus.reduce machine.bus address).toUInt16 }

theorem run_locate (mode : AddressingMode) :
    (locate mode).run machine = (machine.bus.operandAt mode machine.registers, machine) := by
  show (onBus (mode.locate machine.registers)).run machine = _
  unfold onBus
  show ((mode.locate machine.registers).run machine.bus |>.1,
    (⟨machine.registers, ((mode.locate machine.registers).run machine.bus).2⟩ : Machine Memory)) = _
  rw [Memory.run_locate]

theorem run_load (operand : Operand) :
    (load operand).run machine = (machine.valueAt operand, machine) := by
  cases operand <;> rfl

theorem run_store (operand : Operand) (value : UInt8) :
    (store operand value).run machine = ((), machine.putAt operand value) := by
  cases operand <;> rfl

/-- A written operand is in the accumulator or in memory; no other register changes. -/
theorem registers_written (operand : Operand) (byte : Option UInt8) :
    (machine.written operand byte).registers = machine.registers.set .a
      ((if operand = .accumulator then byte else none).getD machine.registers.a) := by
  cases byte with
  | none => cases operand <;> rfl
  | some b => cases operand <;> rfl

theorem size_written (operand : Operand) (byte : Option UInt8) :
    (machine.written operand byte).bus.size = machine.bus.size := by
  cases byte with
  | none => rfl
  | some b =>
    cases operand with
    | none | accumulator => rfl
    | address place => exact machine.bus.size_set place b

/-- A written operand in memory changes its own cell and no other. -/
theorem get_written {operand : Operand} (byte : Option UInt8)
    (hplace : ∀ place, operand = .address place → place < machine.bus.size) {address : Nat}
    (haddress : address < machine.bus.size) :
    (machine.written operand byte).bus.get address =
      (if operand = .address address then byte else none).getD (machine.bus.get address) := by
  cases byte with
  | none => simp [written]
  | some b =>
    cases operand with
    | none | accumulator => rfl
    | address place =>
      have hlt := hplace place rfl
      show (machine.bus.set place b).get address = _
      rw [Memory.get_set, Nat.mod_eq_of_lt hlt, Nat.mod_eq_of_lt haddress]
      by_cases h : place = address <;> simp [h]

theorem run_advance (size : UInt8) :
    (advance size).run machine =
      ((), machine.movedTo (machine.registers.pc.toNat + size.toNat)) :=
  rfl

/-- The address in the two bytes behind the opcode is the operand of absolute addressing. -/
theorem operandAt_absolute :
    machine.bus.operandAt .absolute machine.registers =
      .address (Bus.reduce machine.bus (Bus.littleEndian
        (machine.bus.get (machine.registers.pc.toNat + 1))
        (machine.bus.get (machine.registers.pc.toNat + 2))).toNat) :=
  rfl

theorem run_jump :
    (actions.jump).run machine = ((), machine.movedTo (Bus.littleEndian
      (machine.bus.get (machine.registers.pc.toNat + 1))
      (machine.bus.get (machine.registers.pc.toNat + 2))).toNat) :=
  rfl

/-! ## Instructions -/

/-- The registers after an operation, the program counter and an operand in the accumulator
aside, when the operand's value is `value`. -/
def updatedRegisters (operation : Operation) (regs : Registers) (value : UInt8) : Registers :=
  match operation with
  | .adc => regs.addWithCarry value
  | .and => regs.loadAccumulator (regs.a &&& value)
  | .asl => regs.withShiftOf value
  | .lda => regs.loadAccumulator value
  | .jmp | .nop | .sta => regs

/-- The byte an operation writes to its operand, when the operand's value is `value`. -/
def writtenByte (operation : Operation) (regs : Registers) (value : UInt8) : Option UInt8 :=
  match operation with
  | .asl => some (value <<< 1)
  | .sta => some regs.a
  | .adc | .and | .jmp | .lda | .nop => none

/-- Where the program counter goes, before it is reduced. -/
def nextAddress (instruction : Instruction) : Nat :=
  match instruction.operation with
  | .jmp => (Bus.littleEndian (machine.bus.get (machine.registers.pc.toNat + 1))
      (machine.bus.get (machine.registers.pc.toNat + 2))).toNat
  | _ => machine.registers.pc.toNat + instruction.size.toNat

/-- The machine after an instruction: registers, operand and program counter in this order, all
of them from the machine before. -/
def executed (instruction : Instruction) : Machine Memory :=
  let operand := machine.bus.operandAt instruction.mode machine.registers
  let value := machine.valueAt operand
  let updated : Machine Memory :=
    { machine with
      registers := updatedRegisters instruction.operation machine.registers value }
  (updated.written operand (writtenByte instruction.operation machine.registers value)).movedTo
    (machine.nextAddress instruction)

theorem run_loadOperand (mode : AddressingMode) :
    (actions.loadOperand mode).run machine =
      (machine.valueAt (machine.bus.operandAt mode machine.registers), machine) := by
  unfold Actions.loadOperand
  rw [StateT.run_bind, run_locate]
  exact machine.run_load _

theorem run_execute (instruction : Instruction) :
    (execute instruction).run machine = ((), machine.executed instruction) := by
  unfold execute Actions.execute executed nextAddress
  cases instruction.operation with
  | adc | and | lda =>
    simp only [StateT.run_bind, run_loadOperand]
    rfl
  | asl =>
    simp only [Actions.shiftLeft, StateT.run_bind, run_locate, run_load]
    show (advance instruction.size).run (StateT.run (store _ _) _).2 = _
    rw [run_store, run_advance, ← written, registers_written]
    rfl
  | sta =>
    simp only [StateT.run_bind, run_locate]
    show (advance instruction.size).run (StateT.run (store _ _) _).2 = _
    rw [run_store, run_advance, ← written, registers_written]
    rfl
  | jmp => exact machine.run_jump
  | nop => rfl

end Machine

end Mos6502

import Mathlib.Tactic.Set
import Mos6502.Proofs.Machine.Flat
import Mos6502.Proofs.Registers.Status

/-!
# The reference semantics of an instruction

What the seven operations do, said in integers: bytes are numbers below 256, a byte has a signed
value between -128 and 127, and a flag is a statement about a sum. Nothing here is packed,
shifted or truncated.

**The effect** (`Operation.effect`). From the accumulator, the value of the operand and the
carry, an operation gives new values to the accumulator, to the operand and to some of the flags.

**The reference** (`Follows`). The machine after an instruction holds these values, its program
counter has moved on, and everything else is as it was. All of it refers to the machine before.

Main result: `executed_follows`, the machine follows the reference, for every instruction on every
flat memory. The operand may be the opcode itself, or a part of its own address.
-/

namespace Mos6502

/-! ## Effects -/

/-- The signed value of a byte. -/
def signedValue (n : Nat) : Int :=
  if n < 128 then n else n - 256

/-- New values of bytes and flags. Where there is none, the old value stays. -/
structure Effect where
  accumulator : Option Nat := none
  /-- The new value of the operand. -/
  stored : Option Nat := none
  flag : Flag → Option Bool := fun _ => none

/-- The flags that tell whether a byte is zero and whether it is negative. -/
def signFlags (n : Nat) : Flag → Option Bool
  | .zero => some (n = 0)
  | .negative => some (128 ≤ n)
  | _ => none

/-- The flags after a sum of two bytes and a carry. -/
def sumFlags (a v c : Nat) : Flag → Option Bool
  | .carry => some (255 < a + v + c)
  | .overflow =>
    some (signedValue a + signedValue v + c < -128 ∨ 127 < signedValue a + signedValue v + c)
  | f => signFlags ((a + v + c) % 256) f

/-- The flags after a byte was doubled. -/
def doubleFlags (v : Nat) : Flag → Option Bool
  | .carry => some (128 ≤ v)
  | f => signFlags (2 * v % 256) f

/-- What an operation does with accumulator `a`, operand value `v` and carry `c`. -/
def Operation.effect (operation : Operation) (a v c : Nat) : Effect :=
  match operation with
  | .adc => { accumulator := some ((a + v + c) % 256), flag := sumFlags a v c }
  | .and => { accumulator := some (a &&& v), flag := signFlags (a &&& v) }
  | .asl => { stored := some (2 * v % 256), flag := doubleFlags v }
  | .lda => { accumulator := some v, flag := signFlags v }
  | .sta => { stored := some a }
  | .jmp | .nop => {}

/-! ## The reference -/

/-- The carry as a number. -/
def Registers.carryIn (regs : Registers) : Nat :=
  (regs.flag .carry).toNat

/-- Where the operand of an instruction is in a machine. -/
def Machine.operandOf (machine : Machine Memory) (instruction : Instruction) : Operand :=
  machine.bus.operandAt instruction.mode machine.registers

/-- The effect of an instruction on a machine. -/
def Machine.effectOf (machine : Machine Memory) (instruction : Instruction) : Effect :=
  instruction.operation.effect machine.registers.a.toNat
    (machine.valueAt (machine.operandOf instruction)).toNat machine.registers.carryIn

/-- `after` is what an instruction makes of `before`. -/
structure Follows (instruction : Instruction) (before after : Machine Memory) : Prop where
  accumulator : after.registers.a.toNat =
    ((if before.operandOf instruction = .accumulator then (before.effectOf instruction).stored
      else none).or (before.effectOf instruction).accumulator).getD before.registers.a.toNat
  x : after.registers.x = before.registers.x
  y : after.registers.y = before.registers.y
  s : after.registers.s = before.registers.s
  flag : ∀ f, after.registers.flag f =
    ((before.effectOf instruction).flag f).getD (before.registers.flag f)
  spare : after.registers.spare = before.registers.spare
  /-- A jump goes to where absolute addressing finds its operand. -/
  jump : instruction.operation = .jmp →
    before.bus.operandAt .absolute before.registers = .address after.registers.pc.toNat
  pass : instruction.operation ≠ .jmp → after.registers.pc.toNat =
    (before.registers.pc.toNat + instruction.size.toNat) % before.bus.size
  size : after.bus.size = before.bus.size
  cell : ∀ address < before.bus.size, (after.bus.get address).toNat =
    (if before.operandOf instruction = .address address then (before.effectOf instruction).stored
      else none).getD (before.bus.get address).toNat

/-! ## Registers -/

namespace Registers

/-- `after` differs from `before` by a new accumulator and new flags. -/
structure Updated (before after : Registers) (accumulator : Option Nat)
    (flag : Flag → Option Bool) : Prop where
  a : after.a.toNat = accumulator.getD before.a.toNat
  x : after.x = before.x
  y : after.y = before.y
  s : after.s = before.s
  flag : ∀ f, after.flag f = (flag f).getD (before.flag f)
  spare : after.spare = before.spare

theorem Updated.refl (regs : Registers) : Updated regs regs none fun _ => none :=
  ⟨rfl, rfl, rfl, rfl, fun _ => rfl, rfl⟩

theorem flag_withSignOf (regs : Registers) (result : UInt8) (f : Flag) :
    (regs.withSignOf result).flag f = (signFlags result.toNat f).getD (regs.flag f) := by
  unfold withSignOf
  rw [flag_setFlag, flag_setFlag]
  have hzero : (result == 0) = decide (result.toNat = 0) := by
    rw [Bool.eq_iff_iff, beq_iff_eq, decide_eq_true_iff, ← UInt8.toNat_inj]
    rfl
  have hsign := signBit_ne_zero_iff result
  cases f <;> simp [signFlags, hzero, hsign]

theorem spare_withSignOf (regs : Registers) (result : UInt8) :
    (regs.withSignOf result).spare = regs.spare := by
  unfold withSignOf
  rw [spare_setFlag, spare_setFlag]

/-- Updates of flags leave the cells alone. -/
theorem updated_loadAccumulator (regs : Registers) (value : UInt8) :
    Updated regs (regs.loadAccumulator value) (some value.toNat) (signFlags value.toNat) where
  a := rfl
  x := rfl
  y := rfl
  s := rfl
  flag := regs.flag_withSignOf value
  spare := regs.spare_withSignOf value

theorem toNat_shiftLeft_one (value : UInt8) : (value <<< 1).toNat = 2 * value.toNat % 256 := by
  rw [UInt8.toNat_shiftLeft, Nat.shiftLeft_eq]
  simp [Nat.mul_comm]

theorem updated_withShiftOf (regs : Registers) (value : UInt8) :
    Updated regs (regs.withShiftOf value) none (doubleFlags value.toNat) where
  a := rfl
  x := rfl
  y := rfl
  s := rfl
  flag f := by
    have hsign := signBit_ne_zero_iff value
    unfold withShiftOf
    rw [flag_withSignOf, flag_setFlag, toNat_shiftLeft_one]
    cases f <;> simp [doubleFlags, signFlags, hsign]
  spare := by
    unfold withShiftOf
    rw [spare_withSignOf, spare_setFlag]

/-! ## Sums -/

/-- The sum of two bytes and a carry, as a word. -/
def sumOf (regs : Registers) (value : UInt8) : UInt16 :=
  regs.a.toUInt16 + value.toUInt16 + if regs.flag .carry then 1 else 0

/-- A word is wide enough for the sum. -/
theorem toNat_sumOf (regs : Registers) (value : UInt8) :
    (regs.sumOf value).toNat = regs.a.toNat + value.toNat + regs.carryIn := by
  have ha := regs.a.toNat_lt
  have hv := value.toNat_lt
  unfold sumOf carryIn
  cases regs.flag .carry <;> simp <;> omega

theorem toNat_toUInt8_sumOf (regs : Registers) (value : UInt8) :
    (regs.sumOf value).toUInt8.toNat = (regs.a.toNat + value.toNat + regs.carryIn) % 256 := by
  rw [UInt16.toNat_toUInt8, toNat_sumOf]

theorem carryIn_le (regs : Registers) : regs.carryIn ≤ 1 := by
  unfold carryIn
  cases regs.flag .carry <;> decide

theorem sumOf_gt_iff (regs : Registers) (value : UInt8) :
    regs.sumOf value > 0xFF ↔ 255 < regs.a.toNat + value.toNat + regs.carryIn := by
  rw [← toNat_sumOf]
  exact UInt16.lt_iff_toNat_lt

/-- Operands of one sign whose sum has the other: this is how a signed sum leaves the range of a
byte. -/
theorem overflow_iff {a v c : Nat} (ha : a < 256) (hv : v < 256) (hc : c ≤ 1) :
    ((128 ≤ a ↔ 128 ≤ v) ∧ ¬(128 ≤ a ↔ 128 ≤ (a + v + c) % 256)) ↔
      signedValue a + signedValue v + c < -128 ∨ 127 < signedValue a + signedValue v + c := by
  unfold signedValue
  split <;> split <;> omega

theorem signBit_eq_iff (x y : UInt8) : signBit x = signBit y ↔ (128 ≤ x.toNat ↔ 128 ≤ y.toNat) := by
  have h : ∀ v : UInt8, signBit v = 0 ∨ signBit v = 0x80 := by
    intro v
    have h : ∀ v : BitVec 8, UInt8.ofBitVec v &&& 0x80 = 0 ∨ UInt8.ofBitVec v &&& 0x80 = 0x80 := by
      decide +kernel
    exact h v.toBitVec
  rw [← signBit_ne_zero_iff, ← signBit_ne_zero_iff]
  rcases h x with hx | hx <;> rcases h y with hy | hy <;> simp [hx, hy]

/-- The registers after a sum, before the accumulator is replaced. -/
def flaggedBySum (regs : Registers) (value : UInt8) : Registers :=
  ((regs.withCarryOf (regs.sumOf value)).withOverflowOf regs.a value
    (regs.sumOf value).toUInt8).withSignOf (regs.sumOf value).toUInt8

theorem addWithCarry_eq (regs : Registers) (value : UInt8) :
    regs.addWithCarry value = (regs.flaggedBySum value).set .a (regs.sumOf value).toUInt8 :=
  rfl

theorem updated_addWithCarry (regs : Registers) (value : UInt8) :
    Updated regs (regs.addWithCarry value)
      (some ((regs.a.toNat + value.toNat + regs.carryIn) % 256))
      (sumFlags regs.a.toNat value.toNat regs.carryIn) where
  a := by
    rw [addWithCarry_eq]
    exact regs.toNat_toUInt8_sumOf value
  x := by simp [addWithCarry_eq, set, flaggedBySum, withSignOf, withOverflowOf, withCarryOf]
  y := by simp [addWithCarry_eq, set, flaggedBySum, withSignOf, withOverflowOf, withCarryOf]
  s := by simp [addWithCarry_eq, set, flaggedBySum, withSignOf, withOverflowOf, withCarryOf]
  flag f := by
    rw [addWithCarry_eq]
    show (regs.flaggedBySum value).flag f = _
    rw [flaggedBySum, flag_withSignOf, withOverflowOf, flag_setFlag, withCarryOf, flag_setFlag,
      toNat_toUInt8_sumOf]
    have hcarry := regs.sumOf_gt_iff value
    have hoverflow := overflow_iff regs.a.toNat_lt value.toNat_lt regs.carryIn_le
    cases f with
    | carry => simp [sumFlags, signFlags, hcarry]
    | overflow =>
      simp only [sumFlags, signFlags, ← hoverflow, Option.getD_none, Option.getD_some, if_true]
      rw [Bool.eq_iff_iff, Bool.and_eq_true, beq_iff_eq, bne_iff_ne, decide_eq_true_iff, ne_eq,
        signBit_eq_iff, signBit_eq_iff, toNat_toUInt8_sumOf]
    | _ => simp [sumFlags, signFlags]
  spare := by
    rw [addWithCarry_eq]
    show (regs.flaggedBySum value).spare = _
    rw [flaggedBySum, spare_withSignOf, withOverflowOf, spare_setFlag, withCarryOf, spare_setFlag]

end Registers

namespace Machine

/-! ## Instructions -/

theorem updated_updatedRegisters (operation : Operation) (regs : Registers) (value : UInt8) :
    regs.Updated (updatedRegisters operation regs value)
      (operation.effect regs.a.toNat value.toNat regs.carryIn).accumulator
      (operation.effect regs.a.toNat value.toNat regs.carryIn).flag := by
  cases operation with
  | adc => exact regs.updated_addWithCarry value
  | and =>
    have h := regs.updated_loadAccumulator (regs.a &&& value)
    rwa [UInt8.toNat_and] at h
  | asl => exact regs.updated_withShiftOf value
  | lda => exact regs.updated_loadAccumulator value
  | jmp | nop | sta => exact Registers.Updated.refl regs

theorem stored_effect (operation : Operation) (regs : Registers) (value : UInt8) :
    (operation.effect regs.a.toNat value.toNat regs.carryIn).stored =
      (writtenByte operation regs value).map UInt8.toNat := by
  cases operation with
  | asl => exact congrArg some (Registers.toNat_shiftLeft_one value).symm
  | _ => rfl

theorem nextAddress_eq_of_ne_jmp (machine : Machine Memory) {instruction : Instruction}
    (h : instruction.operation ≠ .jmp) :
    machine.nextAddress instruction =
      machine.registers.pc.toNat + instruction.size.toNat := by
  unfold nextAddress
  split
  · contradiction
  · rfl

theorem toNat_pc_movedTo (machine : Machine Memory) (address : Nat) :
    (machine.movedTo address).registers.pc.toNat = address % machine.bus.size :=
  machine.bus.toNat_reduce address

/-- **The machine follows the reference**, whatever its operand is. -/
theorem executed_follows (machine : Machine Memory) (instruction : Instruction) :
    Follows instruction machine (machine.executed instruction) := by
  set operand := machine.operandOf instruction with hoperand
  set value := machine.valueAt operand
  set byte := writtenByte instruction.operation machine.registers value
  set updated : Machine Memory :=
    { machine with
      registers := updatedRegisters instruction.operation machine.registers value }
  set written := updated.written operand byte
  have hexecuted : machine.executed instruction =
      written.movedTo (machine.nextAddress instruction) := rfl
  have hregs := updated_updatedRegisters instruction.operation machine.registers value
  have hstored : (machine.effectOf instruction).stored = byte.map UInt8.toNat :=
    stored_effect instruction.operation machine.registers value
  have hwritten : written.registers = _ := updated.registers_written operand byte
  have hsize : written.bus.size = machine.bus.size := updated.size_written operand byte
  have hplace : ∀ place, operand = .address place → place < updated.bus.size :=
    fun place h => Memory.operandAt_lt h
  rw [hexecuted]
  exact {
    accumulator := by
      show written.registers.a.toNat = _
      rw [hwritten, hstored, ← hoperand]
      have ha : updated.registers.a.toNat =
          (machine.effectOf instruction).accumulator.getD machine.registers.a.toNat := hregs.a
      by_cases h : operand = .accumulator
      · cases byte with
        | none => simp only [h, if_true, Option.map_none, Option.none_or]; exact ha
        | some b => simp only [h, if_true, Option.map_some, Option.some_or]; rfl
      · simp only [h, if_false, Option.none_or]
        exact ha
    x := by
      show written.registers.x = _
      rw [hwritten]
      exact hregs.x
    y := by
      show written.registers.y = _
      rw [hwritten]
      exact hregs.y
    s := by
      show written.registers.s = _
      rw [hwritten]
      exact hregs.s
    flag := fun f => by
      show written.registers.flag f = _
      rw [hwritten]
      exact hregs.flag f
    spare := by
      show written.registers.spare = _
      rw [hwritten]
      exact hregs.spare
    jump := fun h => by
      rw [operandAt_absolute, toNat_pc_movedTo, hsize, nextAddress, h]
      rfl
    pass := fun h => by
      rw [toNat_pc_movedTo, hsize, machine.nextAddress_eq_of_ne_jmp h]
    size := hsize
    cell := fun address h => by
      show (written.bus.get address).toNat = _
      rw [updated.get_written byte hplace h, hstored, ← hoperand]
      by_cases h : operand = .address address
      · simp only [h, if_true]
        cases byte <;> rfl
      · simp only [h, if_false]
        rfl }

end Machine

end Mos6502

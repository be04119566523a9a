import Mos6502.Proofs.Instruction.Registration
import Mos6502.Proofs.Memory.Number
import Mos6502.Proofs.Processor.Flat
import Mos6502.Proofs.Processor.PacedSteps

/-!
# Standard instructions with an absolute operand

An instruction with an absolute operand is three bytes long: its opcode and an address. If it lies
in memory where the program counter is, and if it is a standard one, the next step executes it on
the byte at that address.

Main result: `afterSteps_absolute`, what such a step does, said by the effect of its operation.
-/

namespace Mos6502

/-- A standard instruction is found by its opcode. -/
theorem InstructionSet.get_standard {instruction : Instruction}
    (h : instruction ∈ standardInstructions) :
    standard.get instruction.opcode = some instruction :=
  mem_toList.mp (toList_standard.mem_iff.mpr h)

/-- An instruction with an absolute operand, as it lies in memory. -/
def absoluteCode (opcode : UInt8) (address : Nat) : List UInt8 :=
  [opcode, lowByte address, highByte address]

/-- An instruction that takes an absolute operand in four cycles. -/
def absoluteInstruction (opcode : UInt8) (mnemonic : String) (operation : Operation) :
    Instruction where
  opcode
  mnemonic
  mode := .absolute
  cycles := 4
  operation

namespace Processor

/-- `after` is what an operation on the byte at `address` makes of a processor. -/
structure Executes (operation : Operation) (address : Nat) (cpu after : Processor Memory) :
    Prop where
  accumulator : after.registers.a.toNat =
    (operation.effect cpu.registers.a.toNat (cpu.bus.get address).toNat
      cpu.registers.carryIn).accumulator.getD cpu.registers.a.toNat
  flag : ∀ f, after.registers.flag f =
    ((operation.effect cpu.registers.a.toNat (cpu.bus.get address).toNat
      cpu.registers.carryIn).flag f).getD (cpu.registers.flag f)
  pc : after.registers.pc.toNat = (cpu.registers.pc.toNat + 3) % cpu.bus.size
  size : after.bus.size = cpu.bus.size
  cell : ∀ other < cpu.bus.size, (after.bus.get other).toNat =
    (if address = other then (operation.effect cpu.registers.a.toNat (cpu.bus.get address).toNat
      cpu.registers.carryIn).stored else none).getD (cpu.bus.get other).toNat
  cycles : after.record.cycles = cpu.record.cycles + 4
  instructionSet : after.instructionSet = cpu.instructionSet
  halted : after.halted = false

variable {operation : Operation} {address : Nat} {cpu after : Processor Memory}

/-- Cells that are not the operand stay as they are. -/
theorem Executes.get_of_ne (h : Executes operation address cpu after) {other : Nat}
    (hother : other < cpu.bus.size) (hne : address ≠ other) :
    after.bus.get other = cpu.bus.get other := by
  have hcell := h.cell other hother
  rw [if_neg hne] at hcell
  exact UInt8.toNat_inj.mp hcell

/-- An operation that stores nothing leaves all cells as they are. -/
theorem Executes.get_of_load (h : Executes operation address cpu after)
    (hload : ∀ a v c, (operation.effect a v c).stored = none) {other : Nat}
    (hother : other < cpu.bus.size) : after.bus.get other = cpu.bus.get other := by
  have hcell := h.cell other hother
  rw [hload, ite_self] at hcell
  exact UInt8.toNat_inj.mp hcell

/-- What lies in memory is still there. -/
theorem Executes.holds_of_load (h : Executes operation address cpu after)
    (hload : ∀ a v c, (operation.effect a v c).stored = none) {start : Nat} {bytes : List UInt8}
    (hle : start + bytes.length ≤ cpu.bus.size) (hbytes : cpu.bus.Holds start bytes) :
    after.bus.Holds start bytes :=
  hbytes.congr fun _ hi => h.get_of_load hload (by omega)

theorem operandOf_absolute {opcode : UInt8} {mnemonic : String} {machine : Machine Memory}
    (hcode : machine.bus.Holds machine.registers.pc.toNat (absoluteCode opcode address))
    (haddress : address < machine.bus.size) :
    machine.operandOf (absoluteInstruction opcode mnemonic operation) = .address address := by
  have hlow : machine.bus.get (machine.registers.pc.toNat + 1) = lowByte address :=
    hcode 1 (by show 1 < 3; omega)
  have hhigh : machine.bus.get (machine.registers.pc.toNat + 2) = highByte address :=
    hcode 2 (by show 2 < 3; omega)
  have hspace : address < addressSpace := Nat.lt_of_lt_of_le haddress machine.bus.size_le
  show machine.bus.operandAt .absolute machine.registers = _
  rw [Machine.operandAt_absolute, hlow, hhigh, toNat_littleEndian_bytes hspace]
  exact congrArg Operand.address (Nat.mod_eq_of_lt haddress)

/-- **A step executes the instruction** that lies at the program counter. -/
theorem stepAt_absolute (tracing : Bool) (now : Instant) {opcode : UInt8} {mnemonic : String}
    (hmem : absoluteInstruction opcode mnemonic operation ∈ standardInstructions)
    (hjump : operation ≠ .jmp) (hset : cpu.instructionSet = .standard) (hrun : cpu.halted = false)
    (hcode : cpu.bus.Holds cpu.registers.pc.toNat (absoluteCode opcode address))
    (haddress : address < cpu.bus.size) :
    ∃ after : Processor Memory, cpu.stepAt tracing now = (.ok (), after) ∧
      Executes operation address cpu after := by
  have hopcode : cpu.bus.get cpu.registers.pc.toNat = opcode := hcode 0 (by show 0 < 3; omega)
  have hget : cpu.instructionSet.get (cpu.bus.get cpu.registers.pc.toNat) =
      some (absoluteInstruction opcode mnemonic operation) := by
    rw [hset, hopcode]
    exact InstructionSet.get_standard hmem
  have hoperand : cpu.toMachine.operandOf (absoluteInstruction opcode mnemonic operation) =
      .address address := operandOf_absolute hcode haddress
  have hfollows := cpu.toMachine.executed_follows (absoluteInstruction opcode mnemonic operation)
  obtain ⟨haccumulator, -, -, -, hflag, -, -, hpass, hsize, hcell⟩ := hfollows
  unfold Machine.effectOf at haccumulator hflag hcell
  rw [hoperand] at haccumulator hflag
  rw [if_neg nofun, Option.none_or] at haccumulator
  refine ⟨_, cpu.stepAt_of_get_eq_some tracing now hrun hget, haccumulator, hflag, hpass hjump,
    hsize, ?_, rfl, rfl, hrun⟩
  intro other hother
  have hthis := hcell other hother
  simp only [hoperand, Operand.address.injEq] at hthis
  exact hthis

variable {τ : Type} [TimeSource τ]

/-- The same, for one of many steps. -/
theorem afterSteps_absolute (start : Processor Memory) (host : Host τ) (m : Nat) {opcode : UInt8}
    {mnemonic : String} (hhere : (start.afterSteps host m).2 = cpu)
    (hmem : absoluteInstruction opcode mnemonic operation ∈ standardInstructions)
    (hjump : operation ≠ .jmp) (hset : cpu.instructionSet = .standard) (hrun : cpu.halted = false)
    (hcode : cpu.bus.Holds cpu.registers.pc.toNat (absoluteCode opcode address))
    (haddress : address < cpu.bus.size) :
    ∃ after : Processor Memory, start.afterSteps host (m + 1) = (.ok (), after) ∧
      Executes operation address cpu after := by
  obtain ⟨now, hstep⟩ := start.afterSteps_succ host m
  rw [hstep, hhere]
  exact stepAt_absolute _ now hmem hjump hset hrun hcode haddress

end Processor

end Mos6502

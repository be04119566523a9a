import Mos6502.Instruction.Set
import Mos6502.Machine.Execute
import Mos6502.Proofs.Memory.Traffic

/-!
# Traffic of an instruction

An instruction finds its operand first. Then it reads the operand, or writes it, or does one after
the other at the same address, and nothing else. A jump finds no operand, but the two bytes that it
reads are those of absolute addressing, and an instruction set gives a jump no other mode.

Main result: `makes_execute`, the accesses of an instruction whose mode its operation allows. They
are reads, and then at most one write (`Instruction.writesLast_traffic`).
-/

namespace Mos6502

/-! ## Accesses of an operand -/

namespace Operand

/-- The reads that give the value of an operand. -/
def reads (operand : Operand) (value : UInt8) : List Access :=
  match operand with
  | .none | .accumulator => []
  | .address place => [.read place value]

/-- The writes that replace the value of an operand. -/
def writes (operand : Operand) (value : UInt8) : List Access :=
  match operand with
  | .none | .accumulator => []
  | .address place => [.write place value]

theorem isRead_of_mem_reads {operand : Operand} {value : UInt8} {access : Access}
    (h : access ∈ operand.reads value) : access.isRead := by
  cases operand with
  | none | accumulator => cases h
  | address address =>
    obtain rfl := List.mem_singleton.mp h
    rfl

theorem writesLast_writes {operand : Operand} {size : Nat}
    (h : ∀ address, operand = .address address → address < size) (value : UInt8) :
    WritesLast size (operand.writes value) := by
  cases operand with
  | none | accumulator => exact .of_reads (by simp [writes])
  | address address => exact .of_write (h address rfl) value

theorem length_reads_le (operand : Operand) (value : UInt8) :
    (operand.reads value).length ≤ 1 := by
  cases operand <;> simp [reads]

theorem length_writes_le (operand : Operand) (value : UInt8) :
    (operand.writes value).length ≤ 1 := by
  cases operand <;> simp [writes]

end Operand

/-! ## Accesses of an instruction -/

/-- The accesses that an operation makes of an operand with the value `value`, when the accumulator
is `a`. -/
def Operation.uses (operation : Operation) (a : UInt8) (operand : Operand) (value : UInt8) :
    List Access :=
  match operation with
  | adc | and | lda => operand.reads value
  | asl => operand.reads value ++ operand.writes (value <<< 1)
  | sta => operand.writes a
  | jmp | nop => []

namespace Instruction

/-- The accesses of an instruction on a bus of `size` cells, when its operand is found by `bytes`
and has the value `value`. -/
def traffic (instruction : Instruction) (regs : Registers) (size : Nat) (bytes : OperandBytes)
    (value : UInt8) : List Access :=
  instruction.mode.lookups regs.pc.toNat bytes ++
    instruction.operation.uses regs.a (instruction.mode.operandFrom regs size bytes) value

variable (instruction : Instruction) (regs : Registers) {size : Nat} (bytes : OperandBytes)
  (value : UInt8)

theorem writesLast_traffic (hsize : 0 < size) :
    WritesLast size (instruction.traffic regs size bytes value) := by
  have hplace (address : Nat) :
      instruction.mode.operandFrom regs size bytes = .address address → address < size :=
    AddressingMode.operandFrom_lt hsize
  refine .reads_append (fun _ => AddressingMode.isRead_of_mem_lookups) ?_
  cases h : instruction.operation with
  | adc | and | lda => exact .of_reads fun _ h => Operand.isRead_of_mem_reads h
  | asl =>
    exact .reads_append (fun _ => Operand.isRead_of_mem_reads) (Operand.writesLast_writes hplace _)
  | sta => exact Operand.writesLast_writes hplace _
  | jmp | nop => exact .of_reads (by simp [Operation.uses])

/-- Only a mode that takes three reads finds an operand that way, and only a shift uses it twice. -/
theorem length_traffic_le (hallowed : instruction.operation.allows instruction.mode) :
    (instruction.traffic regs size bytes value).length ≤ 4 := by
  obtain ⟨_, _, mode, _, operation, _⟩ := instruction
  have hreads := (mode.operandFrom regs size bytes).length_reads_le value
  have hwrites := (mode.operandFrom regs size bytes).length_writes_le
  have hlookups := mode.length_lookups_le regs.pc.toNat bytes
  simp only [traffic, List.length_append]
  cases operation with
  | adc | and | lda => exact Nat.add_le_add hlookups hreads
  | sta => exact Nat.add_le_add hlookups (hwrites regs.a)
  | jmp | nop => exact Nat.le_succ_of_le hlookups
  | asl =>
    replace hallowed : Operation.asl.allows mode := hallowed
    have hshort : (mode.lookups regs.pc.toNat bytes).length ≤ 2 := by
      cases mode with
      | indirectY => exact absurd hallowed (by decide)
      | _ => simp [AddressingMode.lookups]
    simp only [Operation.uses, List.length_append]
    exact Nat.add_le_add hshort (Nat.add_le_add hreads (hwrites _))

end Instruction

/-! ## Machines -/

namespace Machine

variable {β : Type} [Bus β]

/-- The machine has these registers and a bus of `size` cells. -/
structure At (regs : Registers) (size : Nat) (machine : Machine (Recorded β)) : Prop where
  registers : machine.registers = regs
  sized : machine.bus.Sized size

/-- The machine has a bus of `size` cells. -/
def Sized (size : Nat) (machine : Machine (Recorded β)) : Prop :=
  machine.bus.Sized size

variable {regs : Registers} {size : Nat}

theorem makes_modifyRegisters (f : Registers → Registers) :
    Makes (β := β) bus (At regs size) (actions.modifyRegisters f) (Sized size) fun accesses _ =>
      accesses = [] :=
  .quiet (fun _ => rfl) fun _ hat => hat.sized

theorem makes_goTo (address : Nat) :
    Makes (β := β) bus (Sized size) (goTo address) (Sized size) fun accesses _ => accesses = [] :=
  .quiet (fun _ => rfl) fun _ => id

theorem makes_advance (length : UInt8) :
    Makes (β := β) bus (Sized size) (advance length) (Sized size) fun accesses _ =>
      accesses = [] :=
  .get_bind fun _ _ => makes_goTo _

theorem makes_onBus {α : Type} {action : StateM (Recorded β) α} {made : List Access → α → Prop}
    (h : Makes id (Recorded.Sized size) action (Recorded.Sized size) made) :
    Makes bus (At regs size) (onBus action) (At regs size) made := by
  intro machine hat
  obtain ⟨accesses, hlist, hsized, hmade⟩ := h machine.bus hat.sized
  exact ⟨accesses, hlist, ⟨hat.registers, hsized⟩, hmade⟩

variable [FixedSizeBus β]

theorem makes_fetch (offset : Nat) :
    Makes (β := β) bus (At regs size) (fetch offset) (At regs size) fun accesses value =>
      accesses = [.read (regs.pc.toNat + offset) value] :=
  .get_bind fun _ hat => by
    rw [hat.registers]
    exact makes_onBus (Bus.makes_read size _)

theorem makes_locate (mode : AddressingMode) :
    Makes (β := β) bus (At regs size) (locate mode) (At regs size) fun accesses operand =>
      ∃ bytes : OperandBytes, accesses = mode.lookups regs.pc.toNat bytes ∧
        operand = mode.operandFrom regs size bytes :=
  .get_bind fun _ hat => by
    rw [hat.registers]
    exact makes_onBus (mode.makes_locate size regs)

theorem makes_load (operand : Operand) :
    Makes (β := β) bus (At regs size) (load operand) (At regs size) fun accesses value =>
      accesses = operand.reads value := by
  cases operand with
  | none => exact (Makes.pure 0).mono (fun _ => id) fun _ _ h => h.1
  | accumulator =>
    exact .get_bind fun _ _ => (Makes.pure _).mono (fun _ => id) fun _ _ h => h.1
  | address address => exact makes_onBus (Bus.makes_read size address)

theorem makes_store (operand : Operand) (value : UInt8) :
    Makes (β := β) bus (Sized size) (store operand value) (Sized size) fun accesses _ =>
      accesses = operand.writes value := by
  cases operand with
  | none => exact (Makes.pure ()).mono (fun _ => id) fun _ _ h => h.1
  | accumulator => exact .quiet (fun _ => rfl) fun _ => id
  | address address => exact fun machine => Bus.makes_write size address value machine.bus

/-! ## Instructions -/

theorem makes_loadOperand (mode : AddressingMode) :
    Makes (β := β) bus (At regs size) (actions.loadOperand mode) (At regs size)
      fun accesses value => ∃ bytes : OperandBytes,
        accesses = mode.lookups regs.pc.toNat bytes ++
          (mode.operandFrom regs size bytes).reads value := by
  refine (makes_locate mode).bind fun _ operand hoperand => ?_
  obtain ⟨bytes, rfl, rfl⟩ := hoperand
  refine (makes_load _).mono (fun _ => id) ?_
  rintro _ value rfl
  exact ⟨bytes, rfl⟩

theorem makes_shiftLeft (mode : AddressingMode) :
    Makes (β := β) bus (At regs size) (actions.shiftLeft mode) (Sized size) fun accesses _ =>
      ∃ (bytes : OperandBytes) (value : UInt8), accesses = mode.lookups regs.pc.toNat bytes ++
        Operation.asl.uses regs.a (mode.operandFrom regs size bytes) value := by
  refine (makes_locate mode).bind fun _ operand hoperand => ?_
  obtain ⟨bytes, rfl, rfl⟩ := hoperand
  refine (makes_load _).bind fun _ value hvalue => ?_
  refine (makes_modifyRegisters _).bind fun _ _ hquiet => ?_
  refine (makes_store _ _).mono (fun _ => id) ?_
  rintro _ _ rfl
  subst hvalue hquiet
  exact ⟨bytes, value, rfl⟩

/-- A jump reads what absolute addressing reads. -/
theorem makes_jump :
    Makes (β := β) bus (At regs size) actions.jump (Sized size) fun accesses _ =>
      ∃ bytes : OperandBytes, accesses = AddressingMode.absolute.lookups regs.pc.toNat bytes := by
  refine (makes_fetch 1).bind fun _ low hlow => ?_
  refine (makes_fetch 2).bind fun _ high hhigh => ?_
  refine (makes_goTo _).mono (fun _ hat => hat.sized) ?_
  rintro _ _ rfl
  subst hlow hhigh
  exact ⟨⟨low, high, 0, 0⟩, rfl⟩

/-- **The accesses of an instruction.** -/
theorem makes_execute (instruction : Instruction)
    (hallowed : instruction.operation.allows instruction.mode) :
    Makes (β := β) bus (At regs size) (execute instruction) (Sized size) fun accesses _ =>
      ∃ (bytes : OperandBytes) (value : UInt8),
        accesses = instruction.traffic regs size bytes value := by
  obtain ⟨_, _, mode, _, operation, length⟩ := instruction
  unfold execute Actions.execute
  cases operation with
  | adc | and | lda =>
    refine (makes_loadOperand mode).bind fun _ value hoperand => ?_
    obtain ⟨bytes, rfl⟩ := hoperand
    refine (makes_modifyRegisters _).bind fun _ _ hquiet => ?_
    refine (makes_advance length).mono (fun _ => id) ?_
    rintro _ _ rfl
    subst hquiet
    exact ⟨bytes, value, List.append_nil _⟩
  | asl =>
    refine (makes_shiftLeft mode).bind fun _ _ hshift => ?_
    obtain ⟨bytes, value, rfl⟩ := hshift
    refine (makes_advance length).mono (fun _ => id) ?_
    rintro _ _ rfl
    exact ⟨bytes, value, List.append_nil _⟩
  | jmp =>
    obtain rfl : mode = .absolute := by simpa [Operation.allows, Operation.modes] using hallowed
    refine makes_jump.mono (fun _ => id) ?_
    rintro _ _ ⟨bytes, rfl⟩
    exact ⟨bytes, 0, (List.append_nil _).symm⟩
  | nop =>
    obtain rfl : mode = .implied := by simpa [Operation.allows, Operation.modes] using hallowed
    refine (makes_advance length).mono (fun _ hat => hat.sized) ?_
    rintro _ _ rfl
    exact ⟨⟨0, 0, 0, 0⟩, 0, rfl⟩
  | sta =>
    refine (makes_locate mode).bind fun _ operand hoperand => ?_
    obtain ⟨bytes, rfl, rfl⟩ := hoperand
    refine Makes.get_bind fun machine hat => ?_
    rw [hat.registers]
    refine ((makes_store _ regs.a).mono (fun _ hat => hat.sized) fun _ _ => id).bind
      fun _ _ hstore => ?_
    refine (makes_advance length).mono (fun _ => id) ?_
    rintro _ _ rfl
    subst hstore
    exact ⟨bytes, 0, by rw [List.append_nil]; rfl⟩

end Machine

end Mos6502

import Mos6502.Proofs.Addressing.Wrapping
import Mos6502.Proofs.Machine.Traffic

/-!
# Machines on readable buses

On a readable bus, what an instruction reads is what is in the memory behind the bus. So the
accesses that it makes are known from the registers and that memory alone, before it is executed.
Nothing is asked of writes: an instruction writes last, if at all.

**Reads** (`Reads`). An action that only reads is known by the addresses that it reads at, in order,
and by its result.

Main result: `accesses_execute`, the accesses of an instruction with the bytes that are in memory.
-/

namespace Mos6502

/-! ## Actions that only read -/

section

variable {β α γ : Type} [Bus β] [ReadableBus β]

/-- On every bus with this memory behind it, the action reads at these addresses and does nothing
else, and this is its result. -/
def Reads (memory : Memory) (action : StateM β α) (addresses : List Nat) (value : α) : Prop :=
  ∀ bus : β, ReadableBus.memory bus = memory →
    action.run bus = (value, Bus.afterReads addresses bus)

namespace Reads

variable {memory : Memory}

theorem pure (value : α) : Reads (β := β) memory (Pure.pure value) [] value :=
  fun _ _ => rfl

theorem read (address : Nat) :
    Reads (β := β) memory (Bus.read address) [address] (memory.get address) := by
  rintro bus rfl
  rw [← ReadableBus.value_read]
  rfl

theorem bind {action : StateM β α} {next : α → StateM β γ} {addresses later : List Nat} {value : α}
    {result : γ} (h : Reads memory action addresses value)
    (hnext : Reads memory (next value) later result) :
    Reads memory (action >>= next) (addresses ++ later) result := by
  intro bus hbus
  have hafter : ReadableBus.memory (Bus.afterReads addresses bus) = memory :=
    (Bus.memory_afterReads addresses bus).trans hbus
  rw [StateT.run_bind, h bus hbus]
  show (next value).run (Bus.afterReads addresses bus) = _
  rw [hnext _ hafter]
  exact congrArg (Prod.mk result) (List.foldl_append ..).symm

end Reads

/-! ## Finding an operand -/

namespace Memory

/-- The addresses that are read to find the operand of the instruction at `pc`. -/
def lookupsAt (memory : Memory) (mode : AddressingMode) (pc : Nat) : List Nat :=
  match mode with
  | .implied | .accumulator | .immediate => []
  | .zeroPage | .zeroPageX | .indirectX => [pc + 1]
  | .absolute | .absoluteX | .absoluteY => [pc + 1, pc + 2]
  | .indirectY =>
    [pc + 1, (memory.get (pc + 1)).toNat, ((memory.get (pc + 1)).toNat + 1) % 256]

/-- The reads at these addresses. -/
def readsAt (memory : Memory) (addresses : List Nat) : List Access :=
  addresses.map fun address => .read address (memory.get address)

theorem readsAt_lookupsAt (memory : Memory) (mode : AddressingMode) (pc : Nat) :
    memory.readsAt (memory.lookupsAt mode pc) = mode.lookups pc (memory.operandBytes pc) := by
  cases mode <;> rfl

end Memory

namespace AddressingMode

variable (memory : Memory)

theorem reads_inMemory (address : Nat) :
    Reads (β := β) memory (inMemory address) [] (.address (address % memory.size)) := by
  rintro bus rfl
  rw [← ReadableBus.size_eq]
  rfl

theorem reads_absoluteAddress (pc : UInt16) :
    Reads (β := β) memory (absoluteAddress pc) [pc.toNat + 1, pc.toNat + 2]
      (Bus.littleEndian (memory.get (pc.toNat + 1)) (memory.get (pc.toNat + 2))) :=
  (Reads.read _).bind ((Reads.read _).bind (.pure _))

theorem reads_zeroPagePointer (address : UInt8) :
    Reads (β := β) memory (zeroPagePointer address) [address.toNat, (address + 1).toNat]
      (Bus.littleEndian (memory.get address.toNat) (memory.get (address + 1).toNat)) :=
  (Reads.read _).bind ((Reads.read _).bind (.pure _))

/-- **An operand is found** by reads, where it is in the memory behind the bus. -/
theorem reads_locate (mode : AddressingMode) (regs : Registers) :
    Reads (β := β) memory (mode.locate regs) (memory.lookupsAt mode regs.pc.toNat)
      (memory.operandAt mode regs) := by
  have hsucc (byte : UInt8) : (byte + 1).toNat = (byte.toNat + 1) % 256 := UInt8.toNat_add byte 1
  rw [Memory.operandAt_eq]
  cases mode with
  | implied | accumulator => exact .pure _
  | immediate => exact reads_inMemory memory _
  | zeroPage | zeroPageX | indirectX => exact (Reads.read _).bind (reads_inMemory memory _)
  | absolute | absoluteX | absoluteY =>
    exact (reads_absoluteAddress memory _).bind (reads_inMemory memory _)
  | indirectY =>
    unfold Memory.lookupsAt
    rw [← hsucc]
    exact (Reads.read _).bind ((reads_zeroPagePointer memory _).bind (reads_inMemory memory _))

end AddressingMode

end

/-! ## Accesses of a machine -/

namespace Operand

/-- The address of an operand in memory. -/
def cells : Operand → List Nat
  | .none | .accumulator => []
  | .address place => [place]

end Operand

namespace Machine

section

variable {β : Type} [Bus β] [ReadableBus β] (machine : Machine β)

/-- The registers of a machine and the memory behind its bus. -/
def seen : Machine Memory where
  registers := machine.registers
  bus := ReadableBus.memory machine.bus

/-- The machine that is left by reads. -/
def afterReads (addresses : List Nat) : Machine β :=
  { machine with bus := Bus.afterReads addresses machine.bus }

theorem seen_afterReads (addresses : List Nat) :
    (machine.afterReads addresses).seen = machine.seen :=
  congrArg (Machine.mk machine.registers) (Bus.memory_afterReads addresses machine.bus)

omit [ReadableBus β] in
theorem afterReads_append (addresses later : List Nat) :
    (machine.afterReads addresses).afterReads later = machine.afterReads (addresses ++ later) :=
  congrArg (Machine.mk machine.registers) (List.foldl_append ..).symm

theorem run_onBus_of_reads {α : Type} {action : StateM β α} {addresses : List Nat} {value : α}
    (h : Reads machine.seen.bus action addresses value) :
    (onBus action).run machine = (value, machine.afterReads addresses) := by
  show ((action.run machine.bus).1, (⟨machine.registers, (action.run machine.bus).2⟩ : Machine β))
    = _
  rw [h machine.bus rfl]
  rfl

theorem run_fetch (offset : Nat) :
    (fetch offset).run machine = (machine.seen.bus.get (machine.registers.pc.toNat + offset),
      machine.afterReads [machine.registers.pc.toNat + offset]) :=
  machine.run_onBus_of_reads (.read _)

/-- Bytes behind the program counter, one after another. -/
theorem run_mapM_fetch_seen (offsets : List Nat) :
    (offsets.mapM fun k => fetch (k + 1)).run machine =
      ((offsets.map fun k => machine.registers.pc.toNat + (k + 1)).map machine.seen.bus.get,
        machine.afterReads (offsets.map fun k => machine.registers.pc.toNat + (k + 1))) := by
  induction offsets generalizing machine with
  | nil => rfl
  | cons k rest ih =>
    rw [List.mapM_cons, StateT.run_bind, run_fetch]
    show ((rest.mapM fun k => fetch (k + 1)) >>= _ : StateM (Machine β) (List UInt8)).run
      (machine.afterReads _) = _
    rw [StateT.run_bind, ih, seen_afterReads, afterReads_append]
    rfl

theorem run_locate_seen (mode : AddressingMode) :
    (locate mode).run machine = (machine.seen.bus.operandAt mode machine.registers,
      machine.afterReads (machine.seen.bus.lookupsAt mode machine.registers.pc.toNat)) :=
  machine.run_onBus_of_reads (mode.reads_locate _ _)

theorem run_load_seen (operand : Operand) :
    (load operand).run machine =
      (machine.seen.valueAt operand, machine.afterReads operand.cells) := by
  cases operand with
  | none | accumulator => rfl
  | address address => exact machine.run_onBus_of_reads (.read _)

/-- The operand of the instruction at the program counter, if its mode is `mode`. -/
def operandIn (mode : AddressingMode) : Operand :=
  machine.seen.bus.operandAt mode machine.registers

theorem operandIn_afterReads (addresses : List Nat) (mode : AddressingMode) :
    (machine.afterReads addresses).operandIn mode = machine.operandIn mode := by
  unfold operandIn
  rw [seen_afterReads]
  rfl

/-- The addresses that are read to find this operand and its value. -/
def operandReads (mode : AddressingMode) : List Nat :=
  machine.seen.bus.lookupsAt mode machine.registers.pc.toNat ++ (machine.operandIn mode).cells

theorem run_loadOperand_seen (mode : AddressingMode) :
    (actions.loadOperand mode).run machine = (machine.seen.valueAt (machine.operandIn mode),
      machine.afterReads (machine.operandReads mode)) := by
  unfold Actions.loadOperand
  rw [StateT.run_bind, run_locate_seen]
  show (load (machine.operandIn mode)).run (machine.afterReads _) = _
  rw [run_load_seen, seen_afterReads, afterReads_append]
  rfl

theorem run_shiftLeft_seen (mode : AddressingMode) :
    let value := machine.seen.valueAt (machine.operandIn mode)
    (actions.shiftLeft mode).run machine = (store (machine.operandIn mode) (value <<< 1)).run
      ⟨machine.registers.withShiftOf value,
        (machine.afterReads (machine.operandReads mode)).bus⟩ := by
  intro value
  unfold Actions.shiftLeft
  rw [StateT.run_bind, run_locate_seen]
  show (load (machine.operandIn mode) >>= fun value => modifyRegisters (·.withShiftOf value) >>=
    fun _ => store (machine.operandIn mode) (value <<< 1)).run (machine.afterReads _) = _
  rw [StateT.run_bind, run_load_seen, seen_afterReads, afterReads_append]
  rfl

theorem pc_goTo (address : Nat) :
    ((goTo address).run machine).2.registers.pc.toNat = address % machine.seen.bus.size := by
  have hreduce : Bus.reduce machine.bus address = Bus.reduce machine.seen.bus address :=
    congrArg (address % ·) (ReadableBus.size_eq machine.bus)
  show (Bus.reduce machine.bus address).toUInt16.toNat = _
  rw [hreduce]
  exact machine.seen.bus.toNat_reduce address

/-- A jump reads the two bytes that absolute addressing reads. -/
theorem run_jump_seen :
    (actions.jump).run machine = (goTo (Bus.littleEndian
      (machine.seen.bus.get (machine.registers.pc.toNat + 1))
      (machine.seen.bus.get (machine.registers.pc.toNat + 2))).toNat).run
      (machine.afterReads (machine.seen.bus.lookupsAt .absolute machine.registers.pc.toNat)) := by
  unfold Actions.jump
  rw [StateT.run_bind, run_fetch]
  show ((fetch 2 >>= _) : StateM (Machine β) Unit).run (machine.afterReads _) = _
  rw [StateT.run_bind, run_fetch, seen_afterReads]
  rfl

/-- **A jump goes where its operand is.** -/
theorem operandIn_of_jmp {instruction : Instruction}
    (hallowed : instruction.operation.allows instruction.mode)
    (hjump : instruction.operation = .jmp) :
    machine.operandIn instruction.mode =
      .address ((execute instruction).run machine).2.registers.pc.toNat := by
  obtain ⟨opcode, mnemonic, mode, cycles, operation, length⟩ := instruction
  obtain rfl : operation = .jmp := hjump
  obtain rfl : mode = .absolute := by simpa [Operation.allows, Operation.modes] using hallowed
  show _ = Operand.address ((actions.jump).run machine).2.registers.pc.toNat
  rw [run_jump_seen, pc_goTo, seen_afterReads]
  unfold operandIn
  rw [Memory.operandAt_eq]
  rfl

end

/-! ## Accesses of an instruction -/

section

variable {β : Type} [Bus β] [ReadableBus β] (machine : Machine (Recorded β))

theorem accesses_afterReads (addresses : List Nat) :
    (machine.afterReads addresses).bus.accesses.toList =
      machine.bus.accesses.toList ++ machine.seen.bus.readsAt addresses :=
  Bus.accesses_afterReads addresses machine.bus

omit [ReadableBus β] in
theorem accesses_store (operand : Operand) (value : UInt8) :
    ((store operand value).run machine).2.bus.accesses.toList =
      machine.bus.accesses.toList ++ operand.writes value := by
  cases operand with
  | none | accumulator => exact (List.append_nil _).symm
  | address place => exact Array.toList_push ..

/-- The reads that find an operand and give its value. -/
theorem accesses_operandReads (mode : AddressingMode) :
    (machine.afterReads (machine.operandReads mode)).bus.accesses.toList =
      machine.bus.accesses.toList ++ (mode.lookups machine.registers.pc.toNat
          (machine.seen.bus.operandBytes machine.registers.pc.toNat) ++
        (machine.operandIn mode).reads (machine.seen.valueAt (machine.operandIn mode))) := by
  have hcells : machine.seen.bus.readsAt (machine.operandIn mode).cells =
      (machine.operandIn mode).reads (machine.seen.valueAt (machine.operandIn mode)) := by
    cases machine.operandIn mode <;> rfl
  rw [accesses_afterReads, ← hcells, ← Memory.readsAt_lookupsAt]
  exact congrArg (_ ++ ·) List.map_append

/-- **The accesses of an instruction**, with the bytes that are in the memory behind the bus. -/
theorem accesses_execute (instruction : Instruction)
    (hallowed : instruction.operation.allows instruction.mode) :
    ((execute instruction).run machine).2.bus.accesses.toList = machine.bus.accesses.toList ++
      instruction.traffic machine.registers machine.seen.bus.size
        (machine.seen.bus.operandBytes machine.registers.pc.toNat)
        (machine.seen.valueAt (machine.operandIn instruction.mode)) := by
  obtain ⟨opcode, mnemonic, mode, cycles, operation, length⟩ := instruction
  unfold Instruction.traffic
  rw [← Memory.operandAt_eq_operandFrom]
  cases operation with
  | adc | and | lda =>
    show ((actions.loadOperand mode).run machine).2.bus.accesses.toList = _
    rw [run_loadOperand_seen]
    exact machine.accesses_operandReads mode
  | asl =>
    show ((actions.shiftLeft mode).run machine).2.bus.accesses.toList = _
    rw [run_shiftLeft_seen, accesses_store]
    show (machine.afterReads (machine.operandReads mode)).bus.accesses.toList ++ _ = _
    rw [accesses_operandReads, List.append_assoc, List.append_assoc]
    rfl
  | sta =>
    unfold execute Actions.execute
    rw [StateT.run_bind, run_locate_seen]
    show ((store (machine.operandIn mode) machine.registers.a).run
      (machine.afterReads _)).2.bus.accesses.toList = _
    rw [accesses_store, accesses_afterReads, Memory.readsAt_lookupsAt, List.append_assoc]
    rfl
  | jmp =>
    obtain rfl : mode = .absolute := by simpa [Operation.allows, Operation.modes] using hallowed
    show ((actions.jump).run machine).2.bus.accesses.toList = _
    rw [run_jump_seen, ← Memory.readsAt_lookupsAt]
    show (machine.afterReads _).bus.accesses.toList = _ ++ (_ ++ [])
    rw [accesses_afterReads, List.append_nil]
  | nop =>
    obtain rfl : mode = .implied := by simpa [Operation.allows, Operation.modes] using hallowed
    exact (List.append_nil _).symm

end

end Machine

end Mos6502

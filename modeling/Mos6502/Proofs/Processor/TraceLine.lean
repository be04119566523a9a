import Mos6502.Proofs.Disassembly
import Mos6502.Proofs.Machine.Readable
import Mos6502.Proofs.Processor.Traffic

/-!
# The line of a traced step

A step that is traced notes a line about the instruction before it executes it. The bytes of the
line are read for it alone, and the instruction reads its operand bytes once more. On a readable bus
both find the bytes that are in memory. So the line tells what the instruction does, wherever it is,
also where it goes over the end of memory.

**The operand** (`Disassembly.Told.operandIn`). From the mode, the operand bytes and the registers
that are read back from a line, the operand is found as the instruction finds it. The memory is only
asked for the pointer, if there is one.

**The step** (`LineTells`). A recorded bus shows the reads for the line, and behind them the
accesses of the instruction.

Main result: `line_tells_operand`.
-/

namespace Mos6502

/-! ## Operands from a line -/

namespace Memory

/-- The bytes by which an operand is found, given those of the instruction. A pointer is in the
memory. -/
def bytesFor (memory : Memory) (operand : List UInt8) : OperandBytes where
  low := operand.getD 0 0
  high := operand.getD 1 0
  pointerLow := memory.get (operand.getD 0 0).toNat
  pointerHigh := memory.get (((operand.getD 0 0).toNat + 1) % 256)

/-- The bytes of memory from `start` on. -/
def bytesFrom (memory : Memory) (start n : Nat) : List UInt8 :=
  (List.range' start n).map memory.get

variable (memory : Memory)

theorem length_bytesFrom (start n : Nat) : (memory.bytesFrom start n).length = n := by
  simp [bytesFrom]

theorem take_bytesFrom {m n : Nat} (h : m ≤ n) (start : Nat) :
    (memory.bytesFrom start n).take m = memory.bytesFrom start m := by
  obtain ⟨k, rfl⟩ := Nat.exists_eq_add_of_le h
  unfold bytesFrom
  rw [← List.range'_append_1, List.map_append]
  exact List.take_left' (memory.length_bytesFrom start m)

theorem readsAt_range' (start n : Nat) :
    memory.readsAt (List.range' start n) = readsFrom start (memory.bytesFrom start n) := by
  induction n generalizing start with
  | zero => rfl
  | succ n ih =>
    have hrest := ih (start + 1)
    unfold readsAt bytesFrom at hrest ⊢
    rw [List.range'_succ, List.map_cons, List.map_cons, hrest]
    rfl

/-- The operand bytes of a mode are as many as it needs to find its operand. -/
theorem operandFrom_bytesFor (mode : AddressingMode) (regs : Registers) (pc : Nat) :
    mode.operandFrom regs memory.size
        (memory.bytesFor (memory.bytesFrom (pc + 1) mode.operandLength.toNat)) =
      mode.operandFrom regs memory.size (memory.operandBytes pc) := by
  cases mode <;> rfl

/-- All operand bytes are read before a pointer is. An immediate operand is no address, and is read
by whoever uses it. -/
theorem readsFrom_prefix_lookups {mode : AddressingMode} (h : mode ≠ .immediate) (pc : Nat) :
    readsFrom (pc + 1) (memory.bytesFrom (pc + 1) mode.operandLength.toNat) <+:
      mode.lookups pc (memory.operandBytes pc) := by
  cases mode with
  | immediate => exact absurd rfl h
  | indirectY => exact List.prefix_append ..
  | _ => exact List.prefix_rfl

theorem lookups_bytesFor (mode : AddressingMode) (pc : Nat) :
    mode.lookups pc (memory.bytesFor (memory.bytesFrom (pc + 1) mode.operandLength.toNat)) =
      mode.lookups pc (memory.operandBytes pc) := by
  cases mode <;> rfl

end Memory

/-- The operand that a line tells. If it is found by a pointer, the pointer is in `memory`. -/
def Disassembly.Told.operandIn (told : Told) (memory : Memory) : Option Operand :=
  told.operand.map fun operand =>
    told.mode.operandFrom told.registers memory.size (memory.bytesFor operand)

namespace Processor

variable {β τ : Type}

/-! ## The journal of a traced step -/

section

variable [Bus β]

/-- A traced step that succeeds notes the line of its instruction, and nothing else. -/
theorem events_step [TimeSource τ] {cpu : Processor β} {host : Host τ} {instruction : Instruction}
    (hrun : cpu.halted = false) (hget : cpu.instructionSet.get cpu.opcode = some instruction)
    (htracing : host.tracing = true) :
    (cpu.step.run host).2.journal.events =
      host.journal.events.push (.instruction (cpu.fetched.disassemble instruction).1) := by
  have hnoted : (cpu.step.run host).2.journal =
      host.journal.note (.instruction (cpu.fetched.disassemble instruction).1) := by
    rw [run_step_of_running hrun, hget]
    unfold performBy
    rw [StateT.run_bind, StateT.run_bind, run_trace_eq, if_pos htracing]
    rfl
  have hkeeps : host.journal.keeps (.trace : Level) = true := htracing
  rw [hnoted]
  unfold Journal.note
  exact congrArg Journal.events (if_pos hkeeps)

end

/-! ## What a traced step reads -/

section

variable [Bus β] [ReadableBus β] (cpu : Processor β)

theorem toMachine_fetched :
    cpu.fetched.toMachine = cpu.toMachine.afterReads [cpu.registers.pc.toNat] :=
  congrArg Prod.snd (cpu.toMachine.run_fetch 0)

/-- All bytes of the instruction are read, whether or not its mode makes use of them. -/
theorem disassemble_seen (instruction : Instruction) :
    (cpu.disassemble instruction).1 = ⟨cpu.registers, instruction,
        cpu.toMachine.seen.bus.bytesFrom (cpu.registers.pc.toNat + 1)
          (instruction.size.toNat - 1)⟩ ∧
      (cpu.disassemble instruction).2.toMachine = cpu.toMachine.afterReads
        (List.range' (cpu.registers.pc.toNat + 1) (instruction.size.toNat - 1)) := by
  have haddresses : (List.range (instruction.size.toNat - 1)).map
      (fun k => cpu.registers.pc.toNat + (k + 1)) =
      List.range' (cpu.registers.pc.toNat + 1) (instruction.size.toNat - 1) := by
    rw [List.range'_eq_map_range]
    refine List.map_congr_left fun k _ => ?_
    rw [Nat.add_assoc, Nat.add_comm k 1]
  have hread := cpu.toMachine.run_mapM_fetch_seen (List.range (instruction.size.toNat - 1))
  rw [haddresses] at hread
  have hline := congrArg (fun read : List UInt8 × Machine β =>
    Disassembly.mk read.2.registers instruction read.1) hread
  exact ⟨hline, congrArg Prod.snd hread⟩

/-- The line of the instruction at the program counter. -/
def lineOf (instruction : Instruction) : Disassembly where
  registers := cpu.registers
  instruction := instruction
  operand := (ReadableBus.memory cpu.bus).bytesFrom (cpu.registers.pc.toNat + 1)
    (instruction.size.toNat - 1)

/-- The line is noted with the bytes that are in memory, and what is left by noting it is what the
reads leave. -/
theorem disassemble_fetched (instruction : Instruction) :
    (cpu.fetched.disassemble instruction).1 = cpu.lineOf instruction ∧
      (cpu.fetched.disassemble instruction).2.toMachine = cpu.toMachine.afterReads
        (List.range' cpu.registers.pc.toNat (1 + (instruction.size.toNat - 1))) := by
  obtain ⟨hline, hmachine⟩ := cpu.fetched.disassemble_seen instruction
  rw [toMachine_fetched] at hline hmachine
  rw [Machine.seen_afterReads] at hline
  rw [Machine.afterReads_append] at hmachine
  refine ⟨hline, hmachine.trans ?_⟩
  rw [Nat.add_comm 1, List.range'_succ]
  rfl

end

/-! ## What a line tells about its step -/

section

variable [Bus β] [ReadableBus β]

/-- What the line of an instruction tells about the step from `cpu` to `after` that notes it and
executes it, when the operand bytes are `operand` and the operand is `target`. -/
structure LineTells (cpu after : Processor (Recorded β)) (instruction : Instruction)
    (operand : List UInt8) (target : Operand) : Prop where
  /-- The line begins with the program counter, which is not reduced. -/
  address : (Hexadecimal.word cpu.registers.pc).toList <+: (cpu.lineOf instruction).text.toList
  /-- It ends with the registers before the step. -/
  registers : cpu.registers.text.toList <:+ (cpu.lineOf instruction).text.toList
  /-- The mode is read back from it, and all operand bytes of the mode. -/
  readBack : Disassembly.ofText? (cpu.lineOf instruction).text =
    some ⟨cpu.registers.pc, instruction.mode, some operand, cpu.registers⟩
  /-- What is read back tells where the operand is. -/
  operandIn : (Disassembly.Told.mk cpu.registers.pc instruction.mode (some operand)
    cpu.registers).operandIn (ReadableBus.memory cpu.bus) = some target
  /-- The operand is found there once the line was noted. -/
  located : ((Machine.locate instruction.mode).run
    (cpu.fetched.noted true instruction).toMachine).1 = target
  /-- The step reads the opcode and the bytes of the line. Then it finds its operand and uses it. -/
  accesses : after.bus.accesses.toList = cpu.bus.accesses.toList ++
    (readsFrom cpu.registers.pc.toNat ((ReadableBus.memory cpu.bus).get cpu.registers.pc.toNat ::
        (cpu.lineOf instruction).operand) ++
      (instruction.mode.lookups cpu.registers.pc.toNat
          ((ReadableBus.memory cpu.bus).bytesFor operand) ++
        instruction.operation.uses cpu.registers.a target (cpu.toMachine.seen.valueAt target)))
  /-- To find its operand it reads the operand bytes again. -/
  lookups : instruction.mode ≠ .immediate →
    readsFrom (cpu.registers.pc.toNat + 1) operand <+: instruction.mode.lookups
      cpu.registers.pc.toNat ((ReadableBus.memory cpu.bus).bytesFor operand)
  /-- An immediate operand is the operand byte. -/
  immediate : instruction.mode = .immediate → operand = [cpu.toMachine.seen.valueAt target]
  /-- A jump goes to its operand. -/
  jump : instruction.operation = .jmp → target = .address after.registers.pc.toNat

variable (cpu : Processor (Recorded β)) {instruction : Instruction}

/-- The line shows the operand bytes, if the instruction is long enough for them. -/
theorem told_lineOf (hsize : 1 + instruction.mode.operandLength.toNat ≤ instruction.size.toNat) :
    (cpu.lineOf instruction).told = ⟨cpu.registers.pc, instruction.mode,
      some ((ReadableBus.memory cpu.bus).bytesFrom (cpu.registers.pc.toNat + 1)
        instruction.mode.operandLength.toNat), cpu.registers⟩ := by
  have hlength : instruction.mode.operandLength.toNat ≤ instruction.size.toNat - 1 := by omega
  unfold Disassembly.told AddressingMode.shown lineOf
  rw [Memory.length_bytesFrom, if_pos hlength, Memory.take_bytesFrom _ hlength]

/-- The machine that executes an instruction once its line was noted. -/
theorem toMachine_noted (instruction : Instruction) :
    (cpu.fetched.noted true instruction).toMachine = cpu.toMachine.afterReads
      (List.range' cpu.registers.pc.toNat (1 + (instruction.size.toNat - 1))) :=
  (cpu.disassemble_fetched instruction).2

theorem toMachine_performedAt (now : Instant) (instruction : Instruction) :
    (cpu.fetched.performedAt true now instruction).toMachine = ((Machine.execute instruction).run
      (cpu.toMachine.afterReads
        (List.range' cpu.registers.pc.toNat (1 + (instruction.size.toNat - 1))))).2 := by
  rw [← toMachine_noted]
  rfl

/-- The bytes of an instruction are read one after another to note its line. -/
theorem accesses_noted (instruction : Instruction) :
    (cpu.toMachine.afterReads (List.range' cpu.registers.pc.toNat
        (1 + (instruction.size.toNat - 1)))).bus.accesses.toList =
      cpu.bus.accesses.toList ++ readsFrom cpu.registers.pc.toNat
        ((ReadableBus.memory cpu.bus).get cpu.registers.pc.toNat ::
          (cpu.lineOf instruction).operand) := by
  rw [Machine.accesses_afterReads, Memory.readsAt_range', Nat.add_comm 1]
  rfl

theorem accesses_performedAt (now : Instant)
    (hallowed : instruction.operation.allows instruction.mode) :
    (cpu.fetched.performedAt true now instruction).bus.accesses.toList =
      cpu.bus.accesses.toList ++
        (readsFrom cpu.registers.pc.toNat
          ((ReadableBus.memory cpu.bus).get cpu.registers.pc.toNat ::
            (cpu.lineOf instruction).operand) ++
          instruction.traffic cpu.registers (ReadableBus.memory cpu.bus).size
            ((ReadableBus.memory cpu.bus).operandBytes cpu.registers.pc.toNat)
            (cpu.toMachine.seen.valueAt (cpu.toMachine.operandIn instruction.mode))) := by
  have hexecute := Machine.accesses_execute (cpu.toMachine.afterReads
    (List.range' cpu.registers.pc.toNat (1 + (instruction.size.toNat - 1)))) instruction hallowed
  rw [← toMachine_performedAt cpu now, accesses_noted, List.append_assoc,
    Machine.operandIn_afterReads, Machine.seen_afterReads] at hexecute
  exact hexecute

/-- **The line of an instruction tells what is executed**, also when the instruction goes over the
end of memory. -/
theorem lineTells_performedAt (now : Instant)
    (hallowed : instruction.operation.allows instruction.mode)
    (hsize : 1 + instruction.mode.operandLength.toNat ≤ instruction.size.toNat) :
    LineTells cpu (cpu.fetched.performedAt true now instruction) instruction
      ((ReadableBus.memory cpu.bus).bytesFrom (cpu.registers.pc.toNat + 1)
        instruction.mode.operandLength.toNat)
      (cpu.toMachine.operandIn instruction.mode) := by
  have htarget : cpu.toMachine.operandIn instruction.mode =
      instruction.mode.operandFrom cpu.registers (ReadableBus.memory cpu.bus).size
        ((ReadableBus.memory cpu.bus).operandBytes cpu.registers.pc.toNat) :=
    Memory.operandAt_eq_operandFrom _ instruction.mode cpu.registers
  constructor
  case address => exact (cpu.lineOf instruction).word_prefix_text
  case registers => exact (cpu.lineOf instruction).registers_suffix_text
  case readBack => rw [Disassembly.ofText?_text, told_lineOf cpu hsize]
  case operandIn =>
    rw [htarget, ← Memory.operandFrom_bytesFor]
    rfl
  case located =>
    rw [toMachine_noted, Machine.run_locate_seen, Machine.seen_afterReads]
    rfl
  case accesses =>
    rw [accesses_performedAt cpu now hallowed, Memory.lookups_bytesFor, htarget]
    rfl
  case lookups =>
    intro hmode
    rw [Memory.lookups_bytesFor]
    exact Memory.readsFrom_prefix_lookups _ hmode _
  case immediate =>
    intro hmode
    rw [hmode]
    exact congrArg ([·]) (Memory.get_congr _ (Nat.mod_mod ..)).symm
  case jump =>
    intro hjump
    rw [toMachine_performedAt, ← Machine.operandIn_of_jmp _ hallowed hjump,
      Machine.operandIn_afterReads]

/-- **The line of a traced step tells what is executed.** No two modes have an operand field in
common, and in one mode no two operands that are as long as the mode takes. So the operand bytes
that are read back from a line are the ones by which the step finds its operand, however much longer
the instruction is said to be. -/
theorem line_tells_operand [TimeSource τ] (cpu : Processor (Recorded β)) (host : Host τ)
    {instruction : Instruction} (hrun : cpu.halted = false)
    (hget : cpu.instructionSet.get
      ((ReadableBus.memory cpu.bus).get cpu.registers.pc.toNat) = some instruction)
    (hsize : 1 + instruction.mode.operandLength.toNat ≤ instruction.size.toNat)
    (htracing : host.tracing = true) :
    let memory := ReadableBus.memory cpu.bus
    let operand := memory.bytesFrom (cpu.registers.pc.toNat + 1)
      instruction.mode.operandLength.toNat
    let target := instruction.mode.operandFrom cpu.registers memory.size
      (memory.bytesFor operand)
    (∃ (after : Processor (Recorded β)) (host' : Host τ),
      cpu.step.run host = ((.ok (), after), host') ∧
      host'.journal.events = host.journal.events.push (.instruction (cpu.lineOf instruction)) ∧
      LineTells cpu after instruction operand target) ∧
    ∀ (mode mode' : AddressingMode) (bytes bytes' : List UInt8),
      mode.operandLength.toNat ≤ bytes.length → mode'.operandLength.toNat ≤ bytes'.length →
      mode.operandText bytes = mode'.operandText bytes' →
      mode = mode' ∧
        bytes.take mode.operandLength.toNat = bytes'.take mode.operandLength.toNat := by
  intro memory operand target
  have hopcode : cpu.opcode = memory.get cpu.registers.pc.toNat :=
    ReadableBus.value_read cpu.bus cpu.registers.pc.toNat
  rw [← hopcode] at hget
  have htarget : cpu.toMachine.operandIn instruction.mode = target :=
    (Memory.operandAt_eq_operandFrom ..).trans (memory.operandFrom_bytesFor ..).symm
  obtain ⟨host', hstep, -⟩ := cpu.run_step host
  rw [htracing, stepAt_of_defined _ _ _ hrun hget] at hstep
  have hevents := events_step hrun hget htracing
  rw [hstep, (cpu.disassemble_fetched instruction).1] at hevents
  refine ⟨⟨_, host', hstep, hevents, ?_⟩, fun mode mode' bytes bytes' hbytes hbytes' htext => ?_⟩
  · rw [← htarget]
    exact cpu.lineTells_performedAt _ (InstructionSet.allows_of_get hget) hsize
  · obtain ⟨rfl, hshown⟩ := AddressingMode.operandText_inj htext
    unfold AddressingMode.shown at hshown
    rw [if_pos hbytes, if_pos hbytes'] at hshown
    exact ⟨rfl, Option.some.inj hshown⟩

end

/-! ## A jump over the end of memory -/

/-- A jump that is listed with two bytes more than it has. -/
def longJump : Instruction where
  opcode := 0x4C
  mnemonic := "JMP"
  mode := .absolute
  cycles := 3
  operation := .jmp
  size := 5

/-- The jump in the last of four cells, at a program counter that is not reduced. -/
def jumpAtEnd : Processor (Recorded Memory) where
  registers := { pc := 0x0103 }
  bus := ⟨⟨#[0x35, 0x12, 0x00, 0x4C], by decide, by decide⟩, #[]⟩
  instructionSet := InstructionSet.empty.insert longJump (by decide)

example : (jumpAtEnd.lineOf longJump).text =
    "0103  4C 35 12 00 4C  JMP $1235       PC=0103 A=00 X=00 Y=00 S=00 P=00 [........]" := by
  decide +kernel

theorem line_tells_operand_jumpAtEnd :
    ∃ (after : Processor (Recorded Memory)) (host' : Host SimulatedTime),
      jumpAtEnd.step.run tracingHost = ((.ok (), after), host') ∧
      host'.journal.events = #[.instruction (jumpAtEnd.lineOf longJump)] ∧
      LineTells jumpAtEnd after longJump [0x35, 0x12] (.address 1) :=
  (line_tells_operand jumpAtEnd tracingHost rfl rfl (by decide) rfl).1

end Processor

end Mos6502

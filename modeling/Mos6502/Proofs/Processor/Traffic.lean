import Mos6502.Proofs.Machine.Traffic
import Mos6502.Proofs.Processor.Step

/-!
# Traffic of a step

What a step does on its bus, access by access, on any bus of a fixed size.

A step reads the byte at the program counter, which it does not reduce first. If the byte stands for
no instruction, it reads the whole memory for the snapshot. Otherwise it reads the bytes behind the
opcode if the instruction is to be noted, and then the instruction makes its own accesses
(`StepTraffic`).

Main result: `step_makes_traffic`. There is at most one write in a step, it is the last access, and
it is to a cell of the memory. A step that succeeds and is not traced makes five accesses at most.
-/

namespace Mos6502

namespace Processor

variable {β τ : Type} [Bus β]

/-- The accesses of a step and its result. -/
inductive StepTraffic (tracing : Bool) (cpu : Processor (Recorded β)) :
    Except Fault Unit → List Access → Prop
  /-- The opcode, and then every cell in the order of the addresses. The snapshot shows what was
  read. -/
  | undefined (opcode : UInt8) (hget : cpu.instructionSet.get opcode = none) (memory : List UInt8)
    (hmemory : memory.length = Bus.size cpu.bus) :
    StepTraffic tracing cpu
      (.error (.undefinedOpcode opcode cpu.registers.pc
        ⟨cpu.registers, cpu.record.cycles, cpu.record.instructions, memory⟩))
      (.read cpu.registers.pc.toNat opcode :: readsFrom 0 memory)
  /-- The opcode, the rest of the instruction if it is noted, and the accesses of the
  instruction. -/
  | executed (opcode : UInt8) (instruction : Instruction)
    (hget : cpu.instructionSet.get opcode = some instruction) (noted : List UInt8)
    (hnoted : noted.length = if tracing then instruction.size.toNat - 1 else 0)
    (bytes : OperandBytes) (value : UInt8) :
    StepTraffic tracing cpu (.ok ())
      (.read cpu.registers.pc.toNat opcode :: (readsFrom (cpu.registers.pc.toNat + 1) noted ++
        instruction.traffic cpu.registers (Bus.size cpu.bus) bytes value))

namespace StepTraffic

variable {tracing : Bool} {cpu : Processor (Recorded β)} {result : Except Fault Unit}
  {traffic : List Access}

theorem writesLast (h : StepTraffic tracing cpu result traffic) (hsize : 0 < Bus.size cpu.bus) :
    WritesLast (Bus.size cpu.bus) traffic := by
  have hopcode (opcode : UInt8) : ∀ access ∈ [Access.read cpu.registers.pc.toNat opcode],
      access.isRead := by simp [Access.isRead]
  cases h with
  | undefined opcode hget memory =>
    exact .reads_append (hopcode opcode) (.of_reads fun _ h => isRead_of_mem_readsFrom h)
  | executed opcode instruction hget noted hnoted bytes value =>
    have hown := instruction.writesLast_traffic cpu.registers bytes value hsize
    exact .reads_append (hopcode opcode)
      (.reads_append (fun _ h => isRead_of_mem_readsFrom h) hown)

theorem length_le (h : StepTraffic false cpu (.ok ()) traffic) : traffic.length ≤ 5 := by
  cases h with
  | executed opcode instruction hget noted hnoted bytes value =>
    have hown : (instruction.traffic cpu.registers (Bus.size cpu.bus) bytes value).length ≤ 4 :=
      instruction.length_traffic_le _ _ _ (InstructionSet.allows_of_get hget)
    obtain rfl : noted = [] := List.length_eq_zero_iff.mp hnoted
    exact Nat.succ_le_succ hown

end StepTraffic

variable [FixedSizeBus β]

/-! ## Parts of a step -/

variable (cpu : Processor (Recorded β))

theorem fetched_traffic :
    cpu.fetched.bus.accesses.toList =
        cpu.bus.accesses.toList ++ [.read cpu.registers.pc.toNat cpu.opcode] ∧
      cpu.fetched.toMachine.At cpu.registers (Bus.size cpu.bus) := by
  obtain ⟨_, hlist, hat, rfl⟩ := Machine.makes_fetch 0 cpu.toMachine ⟨rfl, rfl⟩
  exact ⟨hlist, hat⟩

theorem snapshot_traffic {regs : Registers} {size : Nat} (hat : cpu.toMachine.At regs size) :
    cpu.snapshot.2.bus.accesses.toList =
        cpu.bus.accesses.toList ++ readsFrom 0 cpu.snapshot.1.memory ∧
      cpu.snapshot.1.memory.length = size := by
  obtain ⟨_, hlist, -, hlength, rfl⟩ :=
    Machine.makes_onBus (Bus.makes_readAll size) cpu.toMachine hat
  exact ⟨hlist, hlength⟩

/-- Noting an instruction reads the rest of it, whether or not its mode makes use of it. -/
theorem noted_traffic (tracing : Bool) (instruction : Instruction) {regs : Registers} {size : Nat}
    (hat : cpu.toMachine.At regs size) :
    ∃ noted : List UInt8,
      (cpu.noted tracing instruction).bus.accesses.toList =
        cpu.bus.accesses.toList ++ readsFrom (regs.pc.toNat + 1) noted ∧
      (noted.length = if tracing then instruction.size.toNat - 1 else 0) ∧
      (cpu.noted tracing instruction).toMachine.At regs size := by
  cases tracing with
  | false => exact ⟨[], (List.append_nil _).symm, rfl, hat⟩
  | true =>
    have hfetch (k : Nat) : Makes Machine.bus (Machine.At regs size)
        (Machine.fetch (β := Recorded β) (k + 1)) (Machine.At regs size) fun accesses byte =>
          accesses = [.read (regs.pc.toNat + 1 + k) byte] := by
      rw [Nat.add_right_comm]
      exact Machine.makes_fetch (k + 1)
    have hread := Makes.mapM_range' hfetch 0 (instruction.size.toNat - 1)
    rw [← List.range_eq_range'] at hread
    obtain ⟨_, hlist, hafter, hlength, rfl⟩ := hread cpu.toMachine hat
    exact ⟨_, hlist, hlength, hafter⟩

/-! ## Steps -/

theorem stepAt_traffic (tracing : Bool) (now : Instant) (hrun : cpu.halted = false) :
    ∃ traffic : List Access,
      (cpu.stepAt tracing now).2.bus.accesses.toList = cpu.bus.accesses.toList ++ traffic ∧
      StepTraffic tracing cpu (cpu.stepAt tracing now).1 traffic := by
  obtain ⟨hfetched, hat⟩ := cpu.fetched_traffic
  cases hget : cpu.instructionSet.get cpu.opcode with
  | none =>
    obtain ⟨hread, hlength⟩ := cpu.fetched.snapshot_traffic hat
    rw [cpu.stepAt_of_undefined _ _ hrun hget]
    refine ⟨.read cpu.registers.pc.toNat cpu.opcode ::
      readsFrom 0 cpu.fetched.snapshot.1.memory, ?_, ?_⟩
    · show cpu.fetched.snapshot.2.bus.accesses.toList = _
      rw [hread, hfetched, List.append_assoc]
      rfl
    · exact .undefined cpu.opcode hget cpu.fetched.snapshot.1.memory hlength
  | some instruction =>
    rw [cpu.stepAt_of_defined _ _ hrun hget]
    obtain ⟨noted, hnoted, hlength, hready⟩ := cpu.fetched.noted_traffic tracing instruction hat
    obtain ⟨_, hown, -, bytes, value, rfl⟩ :=
      Machine.makes_execute instruction (InstructionSet.allows_of_get hget) _ hready
    refine ⟨_, ?_, .executed cpu.opcode instruction hget noted hlength bytes value⟩
    rw [hnoted, hfetched, List.append_assoc, List.append_assoc] at hown
    exact hown

/-- **A step of a running processor makes its accesses in order**, the only write last, and at most
five of them if it succeeds and is not traced. -/
theorem step_makes_traffic [TimeSource τ] (cpu : Processor (Recorded β)) (host : Host τ)
    (hrun : cpu.halted = false) (hsize : 0 < Bus.size cpu.bus) :
    ∃ traffic : List Access,
      (cpu.step.run host).1.2.bus.accesses.toList = cpu.bus.accesses.toList ++ traffic ∧
      StepTraffic host.tracing cpu (cpu.step.run host).1.1 traffic ∧
      WritesLast (Bus.size cpu.bus) traffic ∧
      (host.tracing = false → (cpu.step.run host).1.1 = .ok () → traffic.length ≤ 5) := by
  obtain ⟨host', hstep, -⟩ := cpu.run_step host
  obtain ⟨traffic, hlist, htraffic⟩ := cpu.stepAt_traffic host.tracing host.reading hrun
  rw [hstep]
  refine ⟨traffic, hlist, htraffic, htraffic.writesLast hsize, fun hquiet hok => ?_⟩
  rw [hquiet] at htraffic hok
  rw [hok] at htraffic
  exact htraffic.length_le

/-! ## A shift in a memory that cannot be written -/

/-- A shift that is listed with one byte less than it has. -/
def shortShift : Instruction where
  opcode := 0x0E
  mnemonic := "ASL"
  mode := .absolute
  cycles := 6
  operation := .asl
  size := 2

/-- The shift at a program counter behind the end of the memory, in five cells that all ignore
writes. -/
def shiftInRom : Processor (Recorded (WriteProtected Memory)) where
  registers := { pc := 0x0100 }
  bus := ⟨⟨⟨#[0x41, 0x0E, 0x03, 0x02, 0x00], by decide, by decide⟩, 0, 5⟩, #[]⟩
  instructionSet := InstructionSet.empty.insert shortShift (by decide)

/-- A host that keeps every event. -/
def tracingHost : Host SimulatedTime :=
  ⟨{}, { threshold := some .trace }⟩

theorem step_makes_traffic_shiftInRom :
    ∃ traffic : List Access,
      traffic = [.read 0x0100 0x0E, .read 0x0101 0x03, .read 0x0101 0x03, .read 0x0102 0x02,
        .read 0 0x41, .write 0 0x82] ∧
      StepTraffic true shiftInRom (.ok ()) traffic ∧ WritesLast 5 traffic := by
  obtain ⟨traffic, hlist, htraffic, hlast, -⟩ :=
    step_makes_traffic shiftInRom tracingHost rfl (by decide)
  exact ⟨traffic, hlist.symm, htraffic, hlast⟩

end Processor

end Mos6502

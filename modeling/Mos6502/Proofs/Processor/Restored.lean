import Mos6502.Proofs.Memory.Image
import Mos6502.Proofs.Processor.Flat
import Mos6502.Proofs.Processor.Lockstep

/-!
# Processors from snapshots

A snapshot of a processor on flat memory is complete: a new processor with what it shows does from
there on what the old one does.

**The copy** (`Snapshot.restore`). A memory of the size of the snapshot's is made and loaded, and
the registers are set, a raw program counter included. Only the counters begin again at zero.

**Continuing** (`Continues`). The two are in one state, but for their moments, and the counters of
the original are those of the snapshot added to those of the copy. Steps keep it. So does a run for
a budget: it counts from the value that the counter has, so it ends with the same instruction
wherever the counter began.

Main result: `restored_continues`.
-/

namespace Mos6502

/-! ## Counters that go on -/

namespace Snapshot

/-- A new processor in the state that a snapshot shows. -/
def restore (snapshot : Snapshot) (instrs : InstructionSet) :
    Except SetupError (Processor Memory) := do
  let memory ← Memory.create snapshot.memory.length
  let cpu : Processor Memory := { bus := memory.load 0 snapshot.memory, instructionSet := instrs }
  return cpu.modifyRegisters fun _ => snapshot.registers

/-- What a processor shows that was restored from `earlier`, had it gone on counting from there. -/
def countedOn (earlier snapshot : Snapshot) : Snapshot :=
  { snapshot with
    cycles := earlier.cycles + snapshot.cycles
    instructions := earlier.instructions + snapshot.instructions }

end Snapshot

/-- A fault with the counters in its snapshot going on from `earlier`. -/
def Fault.countedOn (earlier : Snapshot) : Fault → Fault
  | .undefinedOpcode opcode pc snapshot => .undefinedOpcode opcode pc (earlier.countedOn snapshot)
  | .halted => .halted
  | .clock fault => .clock fault

namespace Processor

/-- An answer with the counters in its fault going on from `earlier`. Nothing else in it counts. -/
def Answer.countedOn (earlier : Snapshot) : Answer → Answer
  | .done => .done
  | .stepped result => .stepped (result.mapError (.countedOn earlier))
  | .spent result => .spent (result.mapError (.countedOn earlier))

/-- An observation with all counters going on from `earlier`. -/
def Observation.countedOn (earlier : Snapshot) (o : Observation) : Observation where
  answer := o.answer.countedOn earlier
  snapshot := earlier.countedOn o.snapshot
  halted := o.halted

/-! ## Steps -/

variable {earlier : Snapshot} {cpu copy : Processor Memory}

/-- The original is where the copy is, but for its moments, and has executed `earlier` besides. -/
structure Continues (earlier : Snapshot) (cpu copy : Processor Memory) : Prop where
  machine : cpu.toMachine = copy.toMachine
  instructionSet : cpu.instructionSet = copy.instructionSet
  cycles : cpu.record.cycles = earlier.cycles + copy.record.cycles
  instructions : cpu.record.instructions = earlier.instructions + copy.record.instructions
  halted : cpu.halted = copy.halted

theorem Continues.seen (h : Continues earlier cpu copy) :
    cpu.seen = earlier.countedOn copy.seen := by
  obtain ⟨machine, instrs, ⟨cycles, instructions, begun, last⟩, halted⟩ := cpu
  obtain ⟨rfl, rfl, rfl, rfl, rfl⟩ := h
  rfl

theorem Continues.onMachine {α : Type} (h : Continues earlier cpu copy)
    (action : StateM (Machine Memory) α) :
    Continues earlier (cpu.onMachine action).2 (copy.onMachine action).2 :=
  ⟨congrArg (fun machine => (action.run machine).2) h.machine, h.instructionSet, h.cycles,
    h.instructions, h.halted⟩

/-- **A step continues**, whatever is traced and whenever it ends. -/
theorem stepAt_continues (h : Continues earlier cpu copy) (tracing tracing' : Bool)
    (now now' : Instant) :
    (cpu.stepAt tracing now).1 = (copy.stepAt tracing' now').1.mapError (.countedOn earlier) ∧
      Continues earlier (cpu.stepAt tracing now).2 (copy.stepAt tracing' now').2 := by
  have hopcode : cpu.instructionSet.get (cpu.bus.get cpu.registers.pc.toNat) =
      copy.instructionSet.get (copy.bus.get copy.registers.pc.toNat) := by
    rw [h.instructionSet, h.machine]
  cases hrun : copy.halted with
  | true =>
    rw [copy.stepAt_of_halted _ _ hrun, cpu.stepAt_of_halted _ _ (h.halted.trans hrun)]
    exact ⟨rfl, h⟩
  | false =>
    have hrun' := h.halted.trans hrun
    cases hget : copy.instructionSet.get (copy.bus.get copy.registers.pc.toNat) with
    | none =>
      rw [copy.stepAt_of_get_eq_none _ _ hrun hget,
        cpu.stepAt_of_get_eq_none _ _ hrun' (hopcode.trans hget), h.seen, h.machine]
      exact ⟨rfl, rfl, h.instructionSet, h.cycles, h.instructions, rfl⟩
    | some instruction =>
      rw [copy.stepAt_of_get_eq_some _ _ hrun hget,
        cpu.stepAt_of_get_eq_some _ _ hrun' (hopcode.trans hget), h.machine]
      refine ⟨rfl, rfl, h.instructionSet, ?_, ?_, h.halted⟩
      · show cpu.record.cycles + _ = _ + (copy.record.cycles + _)
        rw [h.cycles, Nat.add_assoc]
      · show cpu.record.instructions + 1 = _ + (copy.record.instructions + 1)
        rw [h.instructions, Nat.add_assoc]

/-! ## Commands -/

variable {τ τ' : Type} [TimeSource τ] [TimeSource τ']

theorem simulates_continues (earlier : Snapshot) :
    Simulates τ τ' (Continues earlier) earlier.cycles (.countedOn earlier) where
  cycles h := h.cycles
  step {cpu copy} h host host' := by
    obtain ⟨_, hstep, -⟩ := cpu.run_step host
    obtain ⟨_, hstep', -⟩ := copy.run_step host'
    rw [hstep, hstep']
    exact stepAt_continues h _ _ _ _

/-- **A command continues.** -/
theorem Command.perform_continues (h : Continues earlier cpu copy) (command : Command)
    (host : Host τ) (host' : Host τ') :
    Option.Rel (fun p q => p.1.1 = q.1.1.countedOn earlier ∧ Continues earlier p.1.2 q.1.2)
      (command.perform cpu host) (command.perform copy host') := by
  cases command with
  | step =>
    obtain ⟨hresult, hnext⟩ := (simulates_continues earlier).step h host host'
    exact .some ⟨congrArg Answer.stepped hresult, hnext⟩
  | spend limit budget =>
    have hspend := spend_simulated (simulates_continues earlier) h limit budget host host'
    exact rel_map hspend fun p q ⟨hresult, hnext⟩ => ⟨congrArg Answer.spent hresult, hnext⟩
  | modifyRegisters f => exact .some ⟨rfl, h.onMachine (Machine.modifyRegisters f)⟩
  | setPc pc => exact .some ⟨rfl, h.onMachine (Machine.goTo pc.toNat)⟩
  | write address value =>
    exact .some ⟨rfl, h.onMachine (Machine.onBus (Bus.write address value))⟩

theorem history_continues (h : Continues earlier cpu copy) (commands : List Command)
    (host : Host τ) (host' : Host τ') :
    history commands cpu host =
      (history commands copy host').map (Option.map (.countedOn earlier)) := by
  induction commands generalizing cpu copy host host' with
  | nil => rfl
  | cons command rest ih =>
    have hcommand := Command.perform_continues h command host host'
    unfold history
    generalize command.perform cpu host = x at hcommand ⊢
    generalize command.perform copy host' = y at hcommand ⊢
    cases hcommand with
    | none => rfl
    | @some p q hagree =>
      obtain ⟨hanswer, hnext⟩ := hagree
      have hsnapshot : p.1.2.snapshot.1 = earlier.countedOn q.1.2.snapshot.1 := by
        rw [snapshot_eq, snapshot_eq]
        exact hnext.seen
      show some (⟨p.1.1, p.1.2.snapshot.1, p.1.2.halted⟩ : Observation) ::
        history rest p.1.2 p.2 = _
      rw [hanswer, hsnapshot, hnext.halted, ih hnext p.2 q.2]
      rfl

/-! ## The copy -/

/-- A new processor on the machine as it is. -/
def renewed (cpu : Processor Memory) : Processor Memory where
  toMachine := cpu.toMachine
  instructionSet := cpu.instructionSet

theorem restore_seen (cpu : Processor Memory) :
    cpu.seen.restore cpu.instructionSet = .ok cpu.renewed := by
  have hlength : cpu.seen.memory.length = cpu.bus.size := Array.length_toList
  unfold Snapshot.restore
  rw [hlength, Memory.create_size]
  show Except.ok (_ : Processor Memory) = _
  have hload : (Memory.zeros cpu.bus.size cpu.bus.size_pos cpu.bus.size_le).load 0 cpu.seen.memory =
      cpu.bus := Memory.load_data (Array.size_replicate ..)
  rw [hload]
  rfl

/-- **A snapshot is complete.** Taking it leaves the processor as it is, and from it a new one can
be restored. Whatever is done with both, on any hosts, the answers, the registers, the memory and
`halted` are the same after each command, and all counters of the original are those of the snapshot
added to those of the copy. -/
theorem restored_continues (cpu : Processor Memory) (hrun : cpu.halted = false) :
    cpu.snapshot.2 = cpu ∧ ∃ copy : Processor Memory,
      cpu.snapshot.1.restore cpu.instructionSet = .ok copy ∧
      cpu.snapshot.1 = cpu.snapshot.1.countedOn copy.snapshot.1 ∧ copy.halted = false ∧
      ∀ (commands : List Command) (host : Host τ) (host' : Host τ'),
        history commands cpu host =
          (history commands copy host').map (Option.map (.countedOn cpu.snapshot.1)) := by
  have hsnapshot : cpu.snapshot = (cpu.seen, cpu) := by
    rw [snapshot_eq, afterReads_memory]
  have hcontinues : Continues cpu.seen cpu cpu.renewed := ⟨rfl, rfl, rfl, rfl, hrun⟩
  rw [hsnapshot]
  refine ⟨rfl, cpu.renewed, cpu.restore_seen, ?_, rfl, history_continues hcontinues⟩
  rw [snapshot_eq]
  exact hcontinues.seen

/-! ## A snapshot taken midway -/

/-- A processor that has executed something, with its program counter far beyond its memory. -/
def midway : Processor Memory where
  registers := { a := 0x01, pc := 65535 }
  bus := selfAdding
  instructionSet := .standard
  record := { cycles := 90, instructions := 7, begun := some 3, lastStep := some 8 }

theorem restored_continues_midway :
    ∃ copy : Processor Memory, midway.snapshot.1.restore .standard = .ok copy ∧
      history [.spend 3 5, .write 3 0xFF, .step] midway (⟨{}, {}⟩ : Host SimulatedTime) =
        (history [.spend 3 5, .write 3 0xFF, .step] copy
          (⟨⟨7⟩, { threshold := some .trace }⟩ : Host SimulatedTime)).map
            (Option.map (.countedOn midway.snapshot.1)) ∧
      (history [.spend 3 5, .write 3 0xFF, .step] midway (⟨{}, {}⟩ : Host SimulatedTime)).map
          (Option.map Observation.answer) =
        [some (.spent (.ok 8)), some .done, some (.stepped (.error (.undefinedOpcode 0xFF 0
          ⟨{ a := 0xDB, p := 0xC0 }, 98, 9, [0xFF, 0x03, 0x00]⟩)))] := by
  obtain ⟨-, copy, hrestore, -, -, hcontinues⟩ :=
    @restored_continues SimulatedTime SimulatedTime _ _ midway rfl
  exact ⟨copy, hrestore, hcontinues _ _ _, rfl⟩

end Processor

end Mos6502

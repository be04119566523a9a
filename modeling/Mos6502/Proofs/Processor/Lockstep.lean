import Mos6502.Instruction.Standard
import Mos6502.Processor.Budget
import Mos6502.Proofs.Memory.Lawful
import Mos6502.Proofs.Processor.Mirrored
import Mos6502.Proofs.Processor.Reference
import Mos6502.Proofs.Processor.Simulation

/-!
# Lock-step with flat memory

A processor on a lawful bus cannot be told from a processor on a flat memory with the same contents.

**One step** (`step_agrees`). A step on the bus is the step on the memory behind it, which is an
image of the bus (`stepAt_mapBus`). The two may run on different hosts: a host can ask for more
reads and tells another time, and neither shows on a lawful bus.

**Main result** (`lockstep`). Whatever is done with both, the answers are the same, and after each
command a snapshot and `halted` are the same. The proof carries `Matches` through the commands.
-/

namespace Mos6502

namespace Processor

variable {β τ τ' : Type} [Bus β] [LawfulBus β]

/-! ## Steps on flat memory -/

/-- On flat memory the reads that tracing asks for do not show. -/
theorem stepAt_tracing (tracing tracing' : Bool) (now : Instant) (cpu : Processor Memory) :
    cpu.stepAt tracing now = cpu.stepAt tracing' now := by
  simp only [stepAt, performedAt, noted_eq]

/-! ## Processors that match -/

/-- The two are in the same state, but for the moments they have noted. -/
structure Matches (cpu : Processor β) (flat : Processor Memory) : Prop where
  registers : cpu.registers = flat.registers
  memory : ReadableBus.memory cpu.bus = flat.bus
  instructionSet : cpu.instructionSet = flat.instructionSet
  cycles : cpu.record.cycles = flat.record.cycles
  instructions : cpu.record.instructions = flat.record.instructions
  halted : cpu.halted = flat.halted

variable {cpu : Processor β} {flat : Processor Memory}

theorem matches_iff :
    cpu.Matches flat ↔ (cpu.mapBus ReadableBus.memory).untimed = flat.untimed := by
  obtain ⟨⟨registers, bus⟩, instrs, ⟨cycles, count, begun, last⟩, halted⟩ := cpu
  obtain ⟨⟨registers', bus'⟩, instrs', ⟨cycles', count', begun', last'⟩, halted'⟩ := flat
  constructor
  · rintro ⟨rfl, rfl, rfl, rfl, rfl, rfl⟩
    rfl
  · intro h
    cases h
    exact ⟨rfl, rfl, rfl, rfl, rfl, rfl⟩

theorem stepAt_agrees (h : cpu.Matches flat) (tracing tracing' : Bool) (now now' : Instant) :
    (cpu.stepAt tracing now).1 = (flat.stepAt tracing' now').1 ∧
      (cpu.stepAt tracing now).2.Matches (flat.stepAt tracing' now').2 := by
  obtain ⟨hresult, hcpu⟩ := stepAt_congr tracing now now' (matches_iff.mp h)
  rw [stepAt_mapBus Bus.mirrored_memory, stepAt_tracing tracing tracing'] at hresult hcpu
  exact ⟨hresult, matches_iff.mpr hcpu⟩

theorem snapshot_of_matches (h : cpu.Matches flat) : cpu.snapshot.1 = flat.snapshot.1 := by
  rw [snapshot_eq, snapshot_eq]
  show cpu.seen = flat.seen
  unfold seen
  rw [h.registers, h.cycles, h.instructions, h.memory]
  rfl

theorem Matches.onMachine {α : Type} {action : StateM (Machine β) α}
    {mirror : StateM (Machine Memory) α} (h : cpu.Matches flat)
    (hmirrors : Mirrors (Machine.mapBus ReadableBus.memory) action mirror) :
    (cpu.onMachine action).2.Matches (flat.onMachine mirror).2 := by
  have hmachine : flat.toMachine = cpu.toMachine.mapBus ReadableBus.memory := by
    unfold Machine.mapBus
    rw [h.registers, h.memory]
  have hrun := hmirrors cpu.toMachine
  rw [← hmachine] at hrun
  have hafter := congrArg Prod.snd hrun
  exact ⟨(congrArg Machine.registers hafter).symm, (congrArg Machine.bus hafter).symm,
    h.instructionSet, h.cycles, h.instructions, h.halted⟩

/-! ## Results that agree -/

/-- The values are the same, and the processors match. -/
def Agree {α : Type} (p : (α × Processor β) × Host τ) (q : (α × Processor Memory) × Host τ') :
    Prop :=
  p.1.1 = q.1.1 ∧ p.1.2.Matches q.1.2

theorem agree_eq {α : Type} :
    (Agree : (Except Fault α × Processor β) × Host τ → (_ × Processor Memory) × Host τ' → Prop) =
      AgreeUpTo Matches id := by
  funext p q
  unfold Agree AgreeUpTo
  cases q.1.1 <;> rfl

variable [TimeSource τ] [TimeSource τ']

theorem step_agrees (h : cpu.Matches flat) (host : Host τ) (host' : Host τ') :
    Agree (cpu.step.run host) (flat.step.run host') := by
  obtain ⟨_, hstep, -⟩ := cpu.run_step host
  obtain ⟨_, hstep', -⟩ := flat.run_step host'
  rw [hstep, hstep']
  exact stepAt_agrees h _ _ _ _

theorem simulates_matches : Simulates τ τ' (Matches (β := β)) 0 id where
  cycles h := h.cycles.trans (Nat.zero_add _).symm
  step h host host' := by
    rw [← agree_eq]
    exact step_agrees h host host'

theorem spend_agrees (h : cpu.Matches flat) (limit budget : Nat) (host : Host τ)
    (host' : Host τ') :
    Option.Rel Agree (cpu.spend limit budget host) (flat.spend limit budget host') := by
  rw [agree_eq]
  exact spend_simulated simulates_matches h limit budget host host'

/-! ## Commands -/

/-- Something that is done with a processor from outside. -/
inductive Command where
  | step
  | spend (limit budget : Nat)
  /-- Set registers and flags in any way. -/
  | modifyRegisters (f : Registers → Registers)
  | setPc (pc : UInt16)
  | write (address : Nat) (value : UInt8)

/-- What a command gives back. -/
inductive Answer where
  | done
  | stepped (result : Except Fault Unit)
  | spent (result : Except Fault Nat)

namespace Command

/-- Do what the command says. There is nothing if a run does not end within its limit. -/
def perform {β τ : Type} [Bus β] [TimeSource τ] :
    Command → Processor β → Host τ → Option ((Answer × Processor β) × Host τ)
  | step, cpu, host =>
    let ((result, cpu), host) := cpu.step.run host
    some ((.stepped result, cpu), host)
  | spend limit budget, cpu, host =>
    (cpu.spend limit budget host).map fun ((result, cpu), host) => ((.spent result, cpu), host)
  | modifyRegisters f, cpu, host => some ((.done, cpu.modifyRegisters f), host)
  | setPc pc, cpu, host => some ((.done, cpu.setPc pc), host)
  | write address value, cpu, host =>
    some ((.done, (cpu.onBus (Bus.write address value)).2), host)

/-- **A command does the same** to processors that match. -/
theorem perform_agrees (h : cpu.Matches flat) (command : Command) (host : Host τ)
    (host' : Host τ') :
    Option.Rel Agree (command.perform cpu host) (command.perform flat host') := by
  cases command with
  | step =>
    obtain ⟨hresult, hnext⟩ := step_agrees h host host'
    exact .some ⟨congrArg Answer.stepped hresult, hnext⟩
  | spend limit budget =>
    exact rel_map (spend_agrees h limit budget host host') fun p q ⟨hresult, hnext⟩ =>
      ⟨congrArg Answer.spent hresult, hnext⟩
  | modifyRegisters f => exact .some ⟨rfl, h.onMachine (Machine.mirrors_modifyRegisters _ f)⟩
  | setPc pc => exact .some ⟨rfl, h.onMachine (Machine.mirrors_goTo Bus.mirrored_memory pc.toNat)⟩
  | write address value =>
    exact .some ⟨rfl, h.onMachine (Machine.mirrors_onBus (Bus.mirrored_memory.write address value))⟩

end Command

/-! ## Commands in a row -/

/-- What is observed of a command and of the processor after it. -/
structure Observation where
  answer : Answer
  /-- Registers, counters and the contents of every cell. -/
  snapshot : Snapshot
  halted : Bool

/-- What is observed of each command in turn. A run that does not end within its limit is the
last one, and there is nothing to be observed of it. -/
def history {β τ : Type} [Bus β] [TimeSource τ] :
    List Command → Processor β → Host τ → List (Option Observation)
  | [], _, _ => []
  | command :: rest, cpu, host =>
    match command.perform cpu host with
    | none => [none]
    | some ((answer, cpu), host) =>
      some ⟨answer, cpu.snapshot.1, cpu.halted⟩ :: history rest cpu host

/-- **Lock-step.** A processor on a lawful bus and one on a flat memory with the same contents are
observed to do the same, whatever is done with both and whichever hosts they have. -/
theorem lockstep (h : cpu.Matches flat) (commands : List Command) (host : Host τ)
    (host' : Host τ') : history commands cpu host = history commands flat host' := by
  induction commands generalizing cpu flat host host' with
  | nil => rfl
  | cons command rest ih =>
    have hcommand := Command.perform_agrees h command host host'
    unfold history
    generalize command.perform cpu host = x at hcommand ⊢
    generalize command.perform flat host' = y at hcommand ⊢
    cases hcommand with
    | none => rfl
    | @some p q hagree =>
      obtain ⟨hanswer, hnext⟩ := hagree
      show some (⟨p.1.1, p.1.2.snapshot.1, p.1.2.halted⟩ : Observation) ::
        history rest p.1.2 p.2 = _
      rw [hanswer, snapshot_of_matches hnext, hnext.halted, ih hnext p.2 q.2]

/-! ## A bus that takes notes -/

/-- Three bytes of memory with an addition whose operand is its own opcode. -/
def selfAdding : Memory :=
  ⟨#[0x6D, 0x03, 0x00], by decide, by decide⟩

/-- A processor on a bus, to be run from far beyond the end of the memory. -/
def startingOn {β : Type} (bus : β) : Processor β where
  registers := { a := 0x01, pc := 65535 }
  bus
  instructionSet := .standard

/-- Add, spoil the opcode, and go on. -/
def spoiling : List Command :=
  [.step, .write 65538 0xFF, .spend 3 5, .setPc 65535, .step]

theorem lockstep_recorded :
    history spoiling (startingOn (⟨selfAdding, #[]⟩ : Recorded Memory))
        (⟨{}, {}⟩ : Host SimulatedTime) =
      history spoiling (startingOn selfAdding)
        (⟨⟨7⟩, { threshold := some .trace }⟩ : Host SimulatedTime) ∧
    (history spoiling (startingOn selfAdding) (⟨{}, {}⟩ : Host SimulatedTime)).map
        (Option.map fun o => (o.snapshot.registers.a, o.snapshot.memory, o.halted)) =
      [some (0x6E, [0x6D, 0x03, 0x00], false), some (0x6E, [0xFF, 0x03, 0x00], false),
        some (0x6E, [0xFF, 0x03, 0x00], true), some (0x6E, [0xFF, 0x03, 0x00], true),
        some (0x6E, [0xFF, 0x03, 0x00], true)] := by
  have hmatches : (startingOn (⟨selfAdding, #[]⟩ : Recorded Memory)).Matches
      (startingOn selfAdding) := ⟨rfl, rfl, rfl, rfl, rfl, rfl⟩
  exact ⟨lockstep hmatches spoiling _ _, rfl⟩

end Processor

end Mos6502

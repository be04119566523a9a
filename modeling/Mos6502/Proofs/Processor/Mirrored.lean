import Mos6502.Proofs.Machine.Mirrored
import Mos6502.Proofs.Processor.Step

/-!
# Mirrored steps

A processor on a bus that has an image has an image itself, with everything else as it is. A step of
the processor is a step of the image, if the instructions that the two execute are mirrored.

**Without a host** (`stepAt_mapBus`) and **on a host** (`run_stepBy_mapBus`): the results are the
same, and the host cannot tell the one from the other.
-/

namespace Mos6502.Processor

variable {β γ τ : Type}

/-- The processor on the image of its bus. -/
def mapBus (image : β → γ) (cpu : Processor β) : Processor γ where
  toMachine := cpu.toMachine.mapBus image
  instructionSet := cpu.instructionSet
  record := cpu.record
  halted := cpu.halted

theorem onMachine_mapBus {α : Type} {image : β → γ} {action : StateM (Machine β) α}
    {mirror : StateM (Machine γ) α} (h : Mirrors (Machine.mapBus image) action mirror)
    (cpu : Processor β) :
    (cpu.mapBus image).onMachine mirror =
      ((cpu.onMachine action).1, (cpu.onMachine action).2.mapBus image) := by
  obtain ⟨machine, instrs, record, halted⟩ := cpu
  show ((mirror.run (machine.mapBus image)).1,
    (⟨(mirror.run (machine.mapBus image)).2, instrs, record, halted⟩ : Processor γ)) = _
  rw [h machine]
  rfl

variable [Bus β] [Bus γ] {image : β → γ}

/-! ## What is read -/

theorem opcode_mapBus (h : Bus.Mirrored image) (cpu : Processor β) :
    (cpu.mapBus image).opcode = cpu.opcode := by
  unfold opcode
  rw [onMachine_mapBus (Machine.mirrors_fetch h 0)]

theorem fetched_mapBus (h : Bus.Mirrored image) (cpu : Processor β) :
    (cpu.mapBus image).fetched = cpu.fetched.mapBus image := by
  unfold fetched
  rw [onMachine_mapBus (Machine.mirrors_fetch h 0)]

theorem snapshot_mapBus (h : Bus.Mirrored image) (cpu : Processor β) :
    (cpu.mapBus image).snapshot = (cpu.snapshot.1, cpu.snapshot.2.mapBus image) := by
  unfold snapshot onBus
  rw [onMachine_mapBus (Machine.mirrors_onBus h.readAll)]
  rfl

theorem disassemble_mapBus (h : Bus.Mirrored image) (cpu : Processor β)
    (instruction : Instruction) :
    (cpu.mapBus image).disassemble instruction =
      ((cpu.disassemble instruction).1, (cpu.disassemble instruction).2.mapBus image) := by
  unfold disassemble
  rw [onMachine_mapBus (.mapM (fun k => Machine.mirrors_fetch h (k + 1)) _)]
  rfl

theorem noted_mapBus (h : Bus.Mirrored image) (tracing : Bool) (cpu : Processor β)
    (instruction : Instruction) :
    (cpu.mapBus image).noted tracing instruction =
      (cpu.noted tracing instruction).mapBus image := by
  cases tracing with
  | false => rfl
  | true => exact congrArg Prod.snd (disassemble_mapBus h cpu instruction)

/-! ## Steps -/

theorem performedAt_mapBus (h : Bus.Mirrored image) (tracing : Bool) (now : Instant)
    (cpu : Processor β) (instruction : Instruction) :
    (cpu.mapBus image).performedAt tracing now instruction =
      (cpu.performedAt tracing now instruction).mapBus image := by
  unfold performedAt
  rw [noted_mapBus h, onMachine_mapBus (Machine.mirrors_execute h instruction)]
  rfl

/-- **A step on a bus is the step on its image.** -/
theorem stepAt_mapBus (h : Bus.Mirrored image) (tracing : Bool) (now : Instant)
    (cpu : Processor β) :
    (cpu.mapBus image).stepAt tracing now =
      ((cpu.stepAt tracing now).1, (cpu.stepAt tracing now).2.mapBus image) := by
  have hopcode := opcode_mapBus h cpu
  cases hrun : cpu.halted with
  | true => rw [cpu.stepAt_of_halted _ _ hrun, (cpu.mapBus image).stepAt_of_halted _ _ hrun]
  | false =>
    cases hget : cpu.instructionSet.get cpu.opcode with
    | none =>
      rw [cpu.stepAt_of_undefined _ _ hrun hget,
        (cpu.mapBus image).stepAt_of_undefined _ _ hrun (by rw [hopcode]; exact hget),
        hopcode, fetched_mapBus h, undefinedFault, halting, snapshot_mapBus h]
      rfl
    | some instruction =>
      rw [cpu.stepAt_of_defined _ _ hrun hget,
        (cpu.mapBus image).stepAt_of_defined _ _ hrun (by rw [hopcode]; exact hget),
        fetched_mapBus h, performedAt_mapBus h]

/-! ## Steps on a host -/

theorem run_trace_mapBus (h : Bus.Mirrored image) (cpu : Processor β) (instruction : Instruction)
    (host : Host τ) :
    ((cpu.mapBus image).trace instruction).run host =
      (((cpu.trace instruction).run host).1.mapBus image,
        ((cpu.trace instruction).run host).2) := by
  rw [run_trace_eq, run_trace_eq, disassemble_mapBus h]
  split <;> rfl

variable [TimeSource τ] {execute : Instruction → StateM (Machine β) Unit}
  {execute' : Instruction → StateM (Machine γ) Unit}

theorem run_performBy_mapBus (h : Bus.Mirrored image)
    (hexecute : ∀ instruction,
      Mirrors (Machine.mapBus image) (execute instruction) (execute' instruction))
    (cpu : Processor β) (instruction : Instruction) (host : Host τ) :
    ((cpu.mapBus image).performBy execute' instruction).run host =
      (((cpu.performBy execute instruction).run host).1.mapBus image,
        ((cpu.performBy execute instruction).run host).2) := by
  obtain ⟨journal, htrace, -⟩ := cpu.run_trace instruction host
  have hmirror := run_trace_mapBus h cpu instruction host
  rw [htrace] at hmirror
  unfold performBy
  rw [StateT.run_bind, StateT.run_bind, hmirror, htrace]
  show (let cpu := (((cpu.noted host.tracing instruction).mapBus image).onMachine
      (execute' instruction)).2
    (({ cpu with record := cpu.record.credit instruction.cycles host.reading } : Processor γ),
      _)) = _
  rw [onMachine_mapBus (hexecute instruction)]
  rfl

/-- **A step on a bus is the step on its image**, on the same host. -/
theorem run_stepBy_mapBus (h : Bus.Mirrored image)
    (hexecute : ∀ instruction,
      Mirrors (Machine.mapBus image) (execute instruction) (execute' instruction))
    (cpu : Processor β) (host : Host τ) :
    ((cpu.mapBus image).stepBy execute').run host =
      ((((cpu.stepBy execute).run host).1.1, ((cpu.stepBy execute).run host).1.2.mapBus image),
        ((cpu.stepBy execute).run host).2) := by
  cases hrun : cpu.halted with
  | true =>
    rw [cpu.run_stepBy_of_halted _ hrun, (cpu.mapBus image).run_stepBy_of_halted _ hrun]
  | false =>
    rw [cpu.run_stepBy_of_running _ hrun, (cpu.mapBus image).run_stepBy_of_running _ hrun,
      opcode_mapBus h, fetched_mapBus h]
    cases hget : cpu.instructionSet.get cpu.opcode with
    | none =>
      have hnone : (cpu.mapBus image).instructionSet.get cpu.opcode = none := hget
      rw [hnone]
      unfold refuse
      rw [snapshot_mapBus h]
      rfl
    | some instruction =>
      have hsome : (cpu.mapBus image).instructionSet.get cpu.opcode = some instruction := hget
      rw [hsome]
      show StateT.run (_ >>= _) host = _
      rw [StateT.run_bind, StateT.run_bind, run_performBy_mapBus h hexecute]
      rfl

end Mos6502.Processor

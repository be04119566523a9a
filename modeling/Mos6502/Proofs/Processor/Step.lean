import Mos6502.Processor.Step
import Mos6502.Proofs.Host

/-!
# A step without its host

What a step makes of a processor depends on its host in two ways only: whether the host keeps
traces, since then the bytes of the instruction are read once more, and the time at which the
instruction is finished. With both given, a step is a function of the processor (`stepAt`).

**The closed form** (`run_step`). A step on a host is `stepAt`, and the host goes on keeping what
it kept.

**Time does not matter** (`stepAt_congr`). Two processors that differ at most in their moments
give the same result, and differ at most in their moments afterwards.
-/

namespace Mos6502

namespace Processor

variable {β τ : Type} [Bus β]

/-! ## The closed form -/

/-- The byte at the program counter. -/
def opcode (cpu : Processor β) : UInt8 :=
  (cpu.onMachine (Machine.fetch 0)).1

/-- The processor once the byte at the program counter was read. -/
def fetched (cpu : Processor β) : Processor β :=
  (cpu.onMachine (Machine.fetch 0)).2

/-- The fault at an opcode without an instruction. -/
def undefinedFault (cpu : Processor β) (opcode : UInt8) : Fault :=
  .undefinedOpcode opcode cpu.snapshot.2.registers.pc cpu.snapshot.1

/-- The processor halted at an opcode without an instruction. -/
def halting (cpu : Processor β) : Processor β :=
  { cpu.snapshot.2 with halted := true }

/-- The processor once the instruction about to be executed was noted, if it is. -/
def noted (tracing : Bool) (cpu : Processor β) (instruction : Instruction) : Processor β :=
  if tracing then (cpu.disassemble instruction).2 else cpu

/-- The processor after an instruction that was finished at `now`. -/
def performedAt (tracing : Bool) (now : Instant) (cpu : Processor β)
    (instruction : Instruction) : Processor β :=
  let cpu := ((cpu.noted tracing instruction).onMachine (Machine.execute instruction)).2
  { cpu with record := cpu.record.credit instruction.cycles now }

/-- A step, given whether instructions are traced and the time at its end. -/
def stepAt (tracing : Bool) (now : Instant) (cpu : Processor β) :
    Except Fault Unit × Processor β :=
  if cpu.halted then
    (.error .halted, cpu)
  else
    match cpu.instructionSet.get cpu.opcode with
    | none => (.error (cpu.fetched.undefinedFault cpu.opcode), cpu.fetched.halting)
    | some instruction => (.ok (), cpu.fetched.performedAt tracing now instruction)

theorem stepAt_of_halted (tracing : Bool) (now : Instant) (cpu : Processor β)
    (h : cpu.halted = true) : cpu.stepAt tracing now = (.error .halted, cpu) := by
  simp [stepAt, h]

theorem stepAt_of_undefined (tracing : Bool) (now : Instant) (cpu : Processor β)
    (hrun : cpu.halted = false) (h : cpu.instructionSet.get cpu.opcode = none) :
    cpu.stepAt tracing now =
      (.error (cpu.fetched.undefinedFault cpu.opcode), cpu.fetched.halting) := by
  simp [stepAt, hrun, h]

theorem stepAt_of_defined (tracing : Bool) (now : Instant) (cpu : Processor β)
    {instruction : Instruction} (hrun : cpu.halted = false)
    (h : cpu.instructionSet.get cpu.opcode = some instruction) :
    cpu.stepAt tracing now = (.ok (), cpu.fetched.performedAt tracing now instruction) := by
  simp [stepAt, hrun, h]

/-! ## Steps on a host -/

theorem run_refuse (cpu : Processor β) (opcode : UInt8) (host : Host τ) :
    ∃ host' : Host τ, (cpu.refuse opcode).run host =
      ((.error (cpu.undefinedFault opcode), cpu.halting), host') ∧
      host'.journal.threshold = host.journal.threshold :=
  ⟨_, rfl, Journal.threshold_note _ _⟩

theorem run_trace_eq (cpu : Processor β) (instruction : Instruction) (host : Host τ) :
    (cpu.trace instruction).run host =
      if host.tracing then
        ((cpu.disassemble instruction).2,
          ⟨host.time, host.journal.note (.instruction (cpu.disassemble instruction).1)⟩)
      else
        (cpu, host) := by
  unfold trace
  rw [StateT.run_bind]
  show StateT.run (if host.tracing = true then _ else _) host = _
  split <;> rfl

theorem run_trace (cpu : Processor β) (instruction : Instruction) (host : Host τ) :
    ∃ journal : Journal, (cpu.trace instruction).run host =
      (cpu.noted host.tracing instruction, { host with journal }) ∧
      journal.threshold = host.journal.threshold := by
  rw [run_trace_eq]
  unfold noted
  cases host.tracing with
  | false => exact ⟨host.journal, rfl, rfl⟩
  | true => exact ⟨_, rfl, Journal.threshold_note _ _⟩

variable [TimeSource τ]

theorem run_performBy_execute (cpu : Processor β) (instruction : Instruction) (host : Host τ) :
    ∃ host' : Host τ, (cpu.performBy Machine.execute instruction).run host =
      (cpu.performedAt host.tracing host.reading instruction, host') ∧
      host'.journal.threshold = host.journal.threshold := by
  obtain ⟨journal, htrace, hthreshold⟩ := cpu.run_trace instruction host
  unfold performBy
  rw [StateT.run_bind, htrace]
  exact ⟨_, rfl, hthreshold⟩

theorem run_stepBy_of_halted (cpu : Processor β)
    (execute : Instruction → StateM (Machine β) Unit) (h : cpu.halted = true) (host : Host τ) :
    (cpu.stepBy execute).run host = ((.error .halted, cpu), host) := by
  unfold stepBy
  rw [h]
  rfl

theorem run_stepBy_of_running (cpu : Processor β)
    (execute : Instruction → StateM (Machine β) Unit) (hrun : cpu.halted = false)
    (host : Host τ) :
    (cpu.stepBy execute).run host = StateT.run (match cpu.instructionSet.get cpu.opcode with
      | none => cpu.fetched.refuse cpu.opcode
      | some instruction =>
        do return (.ok (), ← cpu.fetched.performBy execute instruction)) host := by
  unfold stepBy
  rw [hrun]
  rfl

theorem step_of_halted {cpu : Processor β} (h : cpu.halted = true) (host : Host τ) :
    cpu.step.run host = ((.error .halted, cpu), host) :=
  cpu.run_stepBy_of_halted Machine.execute h host

theorem run_step_of_running {cpu : Processor β} (hrun : cpu.halted = false) (host : Host τ) :
    cpu.step.run host = StateT.run (match cpu.instructionSet.get cpu.opcode with
      | none => cpu.fetched.refuse cpu.opcode
      | some instruction => do
        return (.ok (), ← cpu.fetched.performBy Machine.execute instruction)) host :=
  cpu.run_stepBy_of_running Machine.execute hrun host

/-- **A step on a host is `stepAt`.** -/
theorem run_step (cpu : Processor β) (host : Host τ) :
    ∃ host' : Host τ, cpu.step.run host = (cpu.stepAt host.tracing host.reading, host') ∧
      host'.journal.threshold = host.journal.threshold := by
  cases hrun : cpu.halted with
  | true =>
    rw [cpu.stepAt_of_halted _ _ hrun]
    exact ⟨host, step_of_halted hrun host, rfl⟩
  | false =>
    rw [run_step_of_running hrun]
    cases h : cpu.instructionSet.get cpu.opcode with
    | none =>
      rw [cpu.stepAt_of_undefined _ _ hrun h]
      exact run_refuse cpu.fetched cpu.opcode host
    | some instruction =>
      obtain ⟨host', hperform, hthreshold⟩ := cpu.fetched.run_performBy_execute instruction host
      refine ⟨host', ?_, hthreshold⟩
      rw [cpu.stepAt_of_defined _ _ hrun h, StateT.run_bind, hperform]
      rfl

/-! ## Time -/

theorem time_performBy (execute : Instruction → StateM (Machine β) Unit) (cpu : Processor β)
    (instruction : Instruction) (host : Host τ) :
    ((cpu.performBy execute instruction).run host).2.time =
      (TimeSource.now.run host.time).2 := by
  obtain ⟨journal, htrace, -⟩ := cpu.run_trace instruction host
  unfold performBy
  rw [StateT.run_bind, htrace]
  rfl

/-- A step reads the time once or not at all. -/
theorem time_step (cpu : Processor β) (host : Host τ) :
    ∃ asked : Bool, (cpu.step.run host).2.time =
      if asked then (TimeSource.now.run host.time).2 else host.time := by
  cases hrun : cpu.halted with
  | true =>
    rw [step_of_halted hrun]
    exact ⟨false, rfl⟩
  | false =>
    rw [run_step_of_running hrun]
    cases cpu.instructionSet.get cpu.opcode with
    | none => exact ⟨false, rfl⟩
    | some instruction => exact ⟨true, cpu.fetched.time_performBy Machine.execute instruction host⟩

/-- A processor without its moments. -/
def untimed (cpu : Processor β) : Processor β :=
  { cpu with record := { cpu.record with begun := none, lastStep := none } }

theorem stepAt_untimed (tracing : Bool) (now now' : Instant) (cpu : Processor β) :
    (cpu.untimed.stepAt tracing now').1 = (cpu.stepAt tracing now).1 ∧
      (cpu.untimed.stepAt tracing now').2.untimed = (cpu.stepAt tracing now).2.untimed := by
  cases hrun : cpu.halted with
  | true =>
    rw [cpu.stepAt_of_halted _ _ hrun, cpu.untimed.stepAt_of_halted _ _ hrun]
    exact ⟨rfl, rfl⟩
  | false =>
    cases h : cpu.instructionSet.get cpu.opcode with
    | none =>
      rw [cpu.stepAt_of_undefined _ _ hrun h, cpu.untimed.stepAt_of_undefined _ _ hrun h]
      exact ⟨rfl, rfl⟩
    | some instruction =>
      rw [cpu.stepAt_of_defined _ _ hrun h, cpu.untimed.stepAt_of_defined _ _ hrun h]
      cases tracing with
      | false => exact ⟨rfl, rfl⟩
      | true => exact ⟨rfl, rfl⟩

/-- **Steps do not depend on time.** -/
theorem stepAt_congr (tracing : Bool) (now now' : Instant) {cpu cpu' : Processor β}
    (h : cpu.untimed = cpu'.untimed) :
    (cpu.stepAt tracing now).1 = (cpu'.stepAt tracing now').1 ∧
      (cpu.stepAt tracing now).2.untimed = (cpu'.stepAt tracing now').2.untimed := by
  obtain ⟨hresult, hcpu⟩ := stepAt_untimed tracing now 0 cpu
  obtain ⟨hresult', hcpu'⟩ := stepAt_untimed tracing now' 0 cpu'
  exact ⟨by rw [← hresult, h, hresult'], by rw [← hcpu, h, hcpu']⟩

end Processor

end Mos6502

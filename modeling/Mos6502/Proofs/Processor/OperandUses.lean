import Mos6502.Proofs.Instruction.Registration
import Mos6502.Proofs.Machine.OperandUses
import Mos6502.Proofs.Processor.Kept
import Mos6502.Proofs.Processor.Mirrored

/-!
# Operands that are always there

A processor loads from operands and stores to them only through the instructions that it executes.
These come from its instruction set, and what is not allowed was never accepted there. So a load
from no operand and a store to none, although defined, do not happen.

**A step with its uses of operands** (`stepTracked`). It is the step that every processor makes, but
its instruction notes the uses. Without these notes it is the step (`snd_stepTracked`).

**One step** (`stepUses`). A step that succeeds executes an accepted definition and uses its operand
as it should (`Instruction.ProperUses`). A step that fails uses none.

Main result: `uses_of_registered`. This is so for every step of every drive, whatever calls of
registration the instruction set was built by.
-/

namespace Mos6502

namespace InstructionSet

/-- **What an instruction set decodes** was accepted when it was registered. -/
theorem mem_accepted_of_get {definitions : List Instruction} {opcode : UInt8}
    {instruction : Instruction}
    (h : (empty.registerEach definitions).2.get opcode = some instruction) :
    instruction ∈ accepted definitions (empty.registerEach definitions).1 := by
  have hmem := mem_toList.mpr ((opcode_of_get h).symm ▸ h)
  rw [(toList_registerEach empty definitions).mem_iff, toList_empty] at hmem
  exact hmem

end InstructionSet

namespace Processor

variable {β τ : Type} [Bus β] [TimeSource τ]

/-! ## Steps with their uses -/

/-- A step beside which the uses of operands are noted. -/
def stepTracked (cpu : Processor β) :
    StateM (Host τ) (List OperandUse × Except Fault Unit × Processor β) := do
  let (result, cpu) ← (cpu.mapBus (Tracked.track [])).stepBy Machine.notingActions.execute
  return (cpu.bus.uses, result, cpu.mapBus Tracked.bus)

/-- **A step with its uses is the step.** -/
theorem snd_stepTracked (cpu : Processor β) (host : Host τ) :
    Prod.map Prod.snd id (cpu.stepTracked.run host) = cpu.step.run host :=
  (run_stepBy_mapBus Bus.mirrored_tracked Machine.mirrors_notingActions.execute
    (cpu.mapBus (Tracked.track [])) host).symm

/-! ## What a step uses -/

/-- The uses of operands in a step that has a result, if `known` are the instructions that were
accepted. -/
inductive StepUses (known : List Instruction) (cpu : Processor β) :
    Except Fault Unit → List OperandUse → Prop
  | failed (fault : Fault) : StepUses known cpu (.error fault) []
  | executed (instruction : Instruction) (hnext : cpu.nextInstruction = some instruction)
    (hknown : instruction ∈ known) (uses : List OperandUse)
    (hproper : instruction.ProperUses uses) :
    StepUses known cpu (.ok ()) uses

theorem properUses_performBy (cpu : Processor β) {instruction : Instruction}
    (h : instruction.operation.allows instruction.mode) (host : Host τ) :
    instruction.ProperUses (((cpu.mapBus (Tracked.track [])).performBy
      Machine.notingActions.execute instruction).run host).1.bus.uses := by
  obtain ⟨journal, htrace, -⟩ := cpu.run_trace instruction host
  have hmirror := run_trace_mapBus (Bus.mirrored_track []) cpu instruction host
  rw [htrace] at hmirror
  unfold performBy
  rw [StateT.run_bind, hmirror]
  exact (cpu.noted host.tracing instruction).toMachine.properUses_execute h

/-- **A step uses operands as it should.** -/
theorem stepUses {known : List Instruction} {cpu : Processor β}
    (hknown : ∀ instruction, cpu.nextInstruction = some instruction → instruction ∈ known)
    (host : Host τ) :
    StepUses known cpu (cpu.step.run host).1.1 (cpu.stepTracked.run host).1.1 := by
  have htrack := Bus.mirrored_track (β := β) []
  rw [← snd_stepTracked]
  unfold stepTracked
  rw [StateT.run_bind]
  cases hrun : cpu.halted with
  | true =>
    rw [(cpu.mapBus (Tracked.track [])).run_stepBy_of_halted _ hrun]
    exact .failed .halted
  | false =>
    rw [(cpu.mapBus (Tracked.track [])).run_stepBy_of_running _ hrun, opcode_mapBus htrack,
      fetched_mapBus htrack]
    cases hget : (cpu.mapBus (Tracked.track [])).instructionSet.get cpu.opcode with
    | none =>
      unfold refuse
      rw [snapshot_mapBus htrack]
      exact .failed _
    | some instruction =>
      have hnext : cpu.nextInstruction = some instruction := hget
      rw [StateT.run_bind]
      exact .executed instruction hnext (hknown instruction hnext) _
        (cpu.fetched.properUses_performBy (InstructionSet.allows_of_get hget) host)

/-! ## Every step of every drive -/

/-- The result of a step depends neither on what its host keeps nor on the time. -/
theorem fst_step_congr (cpu : Processor β) (host host' : Host τ) :
    (cpu.step.run host).1.1 = (cpu.step.run host').1.1 := by
  obtain ⟨_, hstep, -⟩ := cpu.run_step host
  obtain ⟨_, hstep', -⟩ := cpu.run_step host'
  rw [hstep, hstep']
  unfold stepAt
  split
  · rfl
  · split <;> rfl

/-- The steps were made with an instruction set, and their results are those that steps have. -/
structure MadeWith (τ : Type) [TimeSource τ] (instrs : InstructionSet) (listed : Listed β) :
    Prop where
  instructionSet : listed.cpu.instructionSet = instrs
  before : ∀ step ∈ listed.made, step.before.instructionSet = instrs
  result : ∀ step ∈ listed.made, ∀ host : Host τ,
    (step.before.step.run host).1.1 = step.result

theorem keptByDrives_madeWith (instrs : InstructionSet) :
    KeptByDrives (β := β) τ (MadeWith τ instrs) where
  step listed host h := by
    refine ⟨?_, ?_, ?_⟩
    · exact (listed.cpu.stepped host).instructionSet_eq.trans h.instructionSet
    · exact List.forall_mem_append.mpr ⟨h.before, List.forall_mem_singleton.mpr h.instructionSet⟩
    · exact List.forall_mem_append.mpr ⟨h.result,
        List.forall_mem_singleton.mpr fun host' => fst_step_congr listed.cpu host' host⟩
  beginAt _ _ h := ⟨h.instructionSet, h.before, h.result⟩

/-- **Operands are always there.**

Let the instruction set of a processor be what is left of any registrations in a row, of which some
may have been refused, and let the processor be driven in any way, on any bus. In each step that is
made, an accepted definition is executed or nothing is. It loads from no operand that is not there
and stores to none, it has to do with the accumulator as its operand only if it is a shift, and it
jumps only by the mode that jumps decode. -/
theorem uses_of_registered (definitions : List Instruction) (drives : List (Drive β τ))
    {cpu cpu' : Processor β} {host host' : Host τ}
    (hset : cpu.instructionSet = (InstructionSet.empty.registerEach definitions).2)
    (hdrives : Drive.applyAll drives (cpu, host) = some (cpu', host')) :
    ∃ made : List (MadeStep β),
      Drive.listAll drives (⟨cpu, []⟩, host) = some (⟨cpu', made⟩, host') ∧
      ∀ step ∈ made, ∀ host : Host τ,
        Prod.map Prod.snd id (step.before.stepTracked.run host) = step.before.step.run host ∧
        StepUses
          (InstructionSet.accepted definitions (InstructionSet.empty.registerEach definitions).1)
          step.before step.result (step.before.stepTracked.run host).1.1 := by
  rw [← Drive.map_listAll drives ⟨cpu, []⟩ host] at hdrives
  obtain ⟨⟨⟨_, made⟩, _⟩, hlist, hforget⟩ := Option.map_eq_some_iff.mp hdrives
  cases hforget
  have hmade := (keptByDrives_madeWith _).drives
    ⟨hset, List.forall_mem_nil _, List.forall_mem_nil _⟩ hlist
  refine ⟨made, hlist, fun step hstep host => ⟨step.before.snd_stepTracked host, ?_⟩⟩
  rw [← hmade.result step hstep host]
  refine stepUses (fun instruction hnext => ?_) host
  unfold nextInstruction at hnext
  rw [hmade.before step hstep] at hnext
  exact InstructionSet.mem_accepted_of_get hnext

/-! ## A program that destroys itself -/

/-- Definitions of which two are refused: an addition without operand, and a second definition of an
opcode. -/
def partlyRefused : List Instruction :=
  [⟨0x0A, "ASL", .accumulator, 2, .asl, 1⟩, ⟨0x69, "ADC", .implied, 2, .adc, 1⟩,
    ⟨0xA9, "LDA", .immediate, 2, .lda, 2⟩, ⟨0x0A, "NOP", .implied, 2, .nop, 1⟩,
    ⟨0x85, "STA", .zeroPage, 3, .sta, 2⟩, ⟨0x4C, "JMP", .absolute, 3, .jmp, 3⟩]

/-- A program that puts a shifted value over its first opcode, and goes there. -/
def selfDestroying : Processor Memory where
  registers := {}
  bus := ⟨#[0xA9, 0x81, 0x0A, 0x85, 0x00, 0x4C, 0x00, 0x00], by decide, by decide⟩
  instructionSet := (InstructionSet.empty.registerEach partlyRefused).2

/-- A step, a run for a budget, and an execution that goes on until a step fails. -/
def inThreeWays : List (Drive Memory SimulatedTime) :=
  .step :: spendAndPace

theorem uses_of_registered_selfDestroying :
    ∃ (cpu' : Processor Memory) (host' : Host SimulatedTime) (made : List (MadeStep Memory)),
      Drive.applyAll inThreeWays (selfDestroying, slowClock.host) = some (cpu', host') ∧
      Drive.listAll inThreeWays (⟨selfDestroying, []⟩, slowClock.host) =
        some (⟨cpu', made⟩, host') ∧
      (made.map fun step => (step.before.stepTracked.run slowClock.host).1.1) =
        [[.load (.address 1) 0x81], [.load .accumulator 0x81, .store .accumulator 0x02],
          [.store (.address 0) 0x02], [], []] ∧
      ∀ step ∈ made,
        StepUses
          (InstructionSet.accepted partlyRefused
            (InstructionSet.empty.registerEach partlyRefused).1)
          step.before step.result (step.before.stepTracked.run slowClock.host).1.1 := by
  obtain ⟨⟨cpu', host'⟩, hdrives⟩ :
      ∃ s, Drive.applyAll inThreeWays (selfDestroying, slowClock.host) = some s :=
    Option.isSome_iff_exists.mp (by decide +kernel)
  obtain ⟨made, hlist, huses⟩ := uses_of_registered partlyRefused inThreeWays rfl hdrives
  have hlisted : (Drive.listAll inThreeWays (⟨selfDestroying, []⟩, slowClock.host)).map
      (fun p => p.1.made.map fun step => (step.before.stepTracked.run slowClock.host).1.1) =
        some [[.load (.address 1) 0x81], [.load .accumulator 0x81, .store .accumulator 0x02],
          [.store (.address 0) 0x02], [], []] := by
    decide +kernel
  rw [hlist] at hlisted
  exact ⟨cpu', host', made, hdrives, hlist, Option.some.inj hlisted,
    fun step hstep => (huses step hstep slowClock.host).2⟩

end Processor

end Mos6502

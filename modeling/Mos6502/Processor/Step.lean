import Mos6502.Host
import Mos6502.Processor.Basic

/-!
# One step of the processor

A step fetches the byte at the program counter and executes the instruction that the instruction
set gives it. If there is none, the processor halts for good and nothing else changes: the fault
carries a snapshot of the state as it was. Counters move only with an executed instruction.
-/

namespace Mos6502.Processor

variable {β τ : Type} [Bus β]

/-- Halt at an opcode that has no instruction. -/
def refuse (cpu : Processor β) (opcode : UInt8) :
    StateM (Host τ) (Except Fault Unit × Processor β) := do
  let (snapshot, cpu) := cpu.snapshot
  let pc := cpu.registers.pc
  Host.note (.undefinedOpcode opcode pc snapshot)
  return (.error (.undefinedOpcode opcode pc snapshot), { cpu with halted := true })

/-- Note the instruction about to be executed, if the journal keeps such events. Otherwise its
bytes are not even read. -/
def trace (cpu : Processor β) (instruction : Instruction) : StateM (Host τ) (Processor β) := do
  if ← Host.keeps .trace then
    let (line, cpu) := cpu.disassemble instruction
    Host.note (.instruction line)
    return cpu
  else
    return cpu

variable [TimeSource τ]

/-- Execute an instruction by `execute` and count it. -/
def performBy (execute : Instruction → StateM (Machine β) Unit) (cpu : Processor β)
    (instruction : Instruction) : StateM (Host τ) (Processor β) := do
  let cpu ← cpu.trace instruction
  let ((), cpu) := cpu.onMachine (execute instruction)
  let now ← Host.now
  return { cpu with record := cpu.record.credit instruction.cycles now }

/-- A step whose instruction is executed by `execute`. -/
def stepBy (execute : Instruction → StateM (Machine β) Unit) (cpu : Processor β) :
    StateM (Host τ) (Except Fault Unit × Processor β) := do
  if cpu.halted then
    return (.error .halted, cpu)
  else
    let (opcode, cpu) := cpu.onMachine (Machine.fetch 0)
    match cpu.instructionSet.get opcode with
    | none => cpu.refuse opcode
    | some instruction => return (.ok (), ← cpu.performBy execute instruction)

/-- Execute the instruction at the program counter. -/
def step (cpu : Processor β) : StateM (Host τ) (Except Fault Unit × Processor β) :=
  cpu.stepBy Machine.execute

end Mos6502.Processor

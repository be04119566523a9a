import Mos6502.Disassembly
import Mos6502.Processor.Fault
import Mos6502.Time

/-!
# Events

What a machine and its clock tell about themselves while they run. An event is a value; its
level and its text follow from it.
-/

namespace Mos6502

/-- How much an event matters, most first. -/
inductive Level where
  | error
  | warn
  | debug
  | trace
  deriving DecidableEq, Repr

/-- How far down a level is. -/
def Level.depth : Level → Nat
  | error => 0
  | warn => 1
  | debug => 2
  | trace => 3

/-- The name of a level. -/
def Level.name : Level → String
  | error => "ERROR"
  | warn => "WARN"
  | debug => "DEBUG"
  | trace => "TRACE"

/-- Something that happened. -/
inductive Event where
  /-- An instruction is about to be executed. -/
  | instruction (line : Disassembly)
  /-- An undefined opcode halted the processor. -/
  | undefinedOpcode (opcode : UInt8) (pc : UInt16) (snapshot : Snapshot)
  /-- The clock could not be stopped after a fault of the processor. -/
  | stopFailed (fault : ClockFault) (after : Fault)
  /-- The clock was started. -/
  | clockStarted (target callsPerFrame : UInt64) (milliseconds : Nat)
  /-- The clock was stopped when so many frames had been finished. -/
  | clockStopped (frames : Nat)
  /-- A frame was asked for while another was in progress. -/
  | frameRefused
  /-- The clock skipped so many deadlines that had passed. -/
  | deadlinesMissed (count : UInt64)
  /-- A frame was finished. -/
  | frameFinished (number : Nat) (duration : Duration)
  deriving DecidableEq, Repr

namespace Event

/-- The level of an event. -/
def level : Event → Level
  | undefinedOpcode .. | stopFailed .. => .error
  | frameRefused | deadlinesMissed _ => .warn
  | clockStarted .. | clockStopped _ => .debug
  | instruction _ | frameFinished .. => .trace

/-- The text of an event. -/
def text : Event → String
  | instruction line => line.text
  | undefinedOpcode opcode pc snapshot =>
    s!"invalid opcode ${Hexadecimal.byte opcode} at ${Hexadecimal.word pc}, halting\n" ++
      snapshot.text
  | stopFailed fault after => s!"{fault.message} while stopping after: {after.message}"
  | clockStarted target callsPerFrame milliseconds =>
    s!"clock started: {target} Hz target, {callsPerFrame} cycles every {milliseconds} ms"
  | clockStopped frames => s!"clock stopped after {frames} frames"
  | frameRefused => "frame requested while another frame is running, dropped"
  | deadlinesMissed count => s!"clock fell behind, dropped {count} frame(s)"
  | frameFinished number duration => s!"frame {number} took {duration.text}"

end Event

end Mos6502

import Mos6502.HexDump
import Mos6502.Registers

/-!
# Snapshots

Everything that can be seen of a processor at one moment. It is taken when an undefined opcode
halts the processor. Its text is a line of registers, a line of counters and a dump of the
memory.
-/

namespace Mos6502

/-- The visible state of a processor. -/
structure Snapshot where
  registers : Registers
  /-- The cycles of all instructions executed before. -/
  cycles : Nat
  /-- The number of instructions executed before. -/
  instructions : Nat
  /-- Every byte of the memory. -/
  memory : List UInt8
  deriving DecidableEq, Repr

namespace Snapshot

/-- The line of counters. -/
def countersText (snapshot : Snapshot) : String :=
  s!"cycles={snapshot.cycles} instructions={snapshot.instructions} " ++
    s!"memory={snapshot.memory.length} bytes"

/-- The lines of a snapshot. -/
def lines (snapshot : Snapshot) : List String :=
  snapshot.registers.text :: snapshot.countersText ::
    (HexDump.lines (HexDump.rows snapshot.memory)).map HexDump.Line.text

/-- The text of a snapshot: its lines, each with an end. -/
def text (snapshot : Snapshot) : String :=
  String.join (snapshot.lines.map (· ++ "\n"))

end Snapshot

end Mos6502

/-!
# The byte registers

The five registers of eight bits. The program counter is wider and is kept apart from them.
-/

namespace Mos6502

/-- A register of eight bits. -/
inductive Register where
  /-- The accumulator. -/
  | a
  /-- The index register Y. -/
  | y
  /-- The index register X. -/
  | x
  /-- The stack pointer. -/
  | s
  /-- The processor status. -/
  | p
  deriving DecidableEq, Repr

namespace Register

/-- Every register once, in the order of the register file. -/
def all : List Register := [a, y, x, s, p]

end Register

end Mos6502

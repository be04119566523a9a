import Mos6502.SetupError
import Mos6502.Instruction.Basic

/-!
# Instruction sets

An instruction set gives each opcode at most one instruction. The first registration of an
opcode that is accepted stays: a later one is refused, and so is one whose operation does not
allow its mode. Whatever the processor decodes therefore has a mode its operation can use
(`allows_of_get`).
-/

namespace Mos6502

/-! ## Slots -/

/-- One slot for each opcode. -/
abbrev InstructionSlots : Type := Vector (Option Instruction) 256

namespace InstructionSlots

/-- The slot of an opcode. -/
def lookup (slots : InstructionSlots) (opcode : UInt8) : Option Instruction :=
  have below : opcode.toNat < 256 := opcode.toNat_lt
  slots[opcode.toNat]

/-- Fill the slot of an instruction's opcode. -/
def fill (slots : InstructionSlots) (instruction : Instruction) : InstructionSlots :=
  slots.set instruction.opcode.toNat (some instruction) instruction.opcode.toNat_lt

theorem lookup_fill (slots : InstructionSlots) (instruction : Instruction) (opcode : UInt8) :
    (slots.fill instruction).lookup opcode =
      if instruction.opcode = opcode then some instruction else slots.lookup opcode := by
  simp only [lookup, fill, Vector.getElem_set, UInt8.toNat_inj]

end InstructionSlots

/-! ## Instruction sets -/

/-- Instructions, each in the slot of its opcode and with a mode its operation allows. -/
structure InstructionSet where
  slots : InstructionSlots
  wellFormed : ∀ opcode instruction, slots.lookup opcode = some instruction →
    instruction.opcode = opcode ∧ instruction.operation.allows instruction.mode

namespace InstructionSet

/-- The instruction of an opcode. -/
def get (instrs : InstructionSet) (opcode : UInt8) : Option Instruction :=
  instrs.slots.lookup opcode

theorem opcode_of_get {instrs : InstructionSet} {opcode : UInt8} {instruction : Instruction}
    (h : instrs.get opcode = some instruction) : instruction.opcode = opcode :=
  (instrs.wellFormed opcode instruction h).1

theorem allows_of_get {instrs : InstructionSet} {opcode : UInt8} {instruction : Instruction}
    (h : instrs.get opcode = some instruction) :
    instruction.operation.allows instruction.mode :=
  (instrs.wellFormed opcode instruction h).2

/-! ## Building -/

/-- No instructions. -/
def empty : InstructionSet where
  slots := Vector.replicate 256 none
  wellFormed := by simp [InstructionSlots.lookup]

instance : Inhabited InstructionSet := ⟨empty⟩

@[simp]
theorem get_empty (opcode : UInt8) : empty.get opcode = none := by
  simp [get, empty, InstructionSlots.lookup]

/-- Put an instruction into its slot. -/
def insert (instrs : InstructionSet) (instruction : Instruction)
    (allowed : instruction.operation.allows instruction.mode) : InstructionSet where
  slots := instrs.slots.fill instruction
  wellFormed := by
    intro opcode found h
    rw [InstructionSlots.lookup_fill] at h
    split at h
    · obtain rfl := Option.some.inj h
      exact ⟨by assumption, allowed⟩
    · exact instrs.wellFormed opcode found h

theorem get_insert (instrs : InstructionSet) (instruction : Instruction)
    (allowed : instruction.operation.allows instruction.mode) (opcode : UInt8) :
    (instrs.insert instruction allowed).get opcode =
      if instruction.opcode = opcode then some instruction else instrs.get opcode :=
  InstructionSlots.lookup_fill instrs.slots instruction opcode

/-- Put an instruction into its slot unless the slot is taken or the operation does not allow
the mode. If both are so, the mode is what is reported. -/
def register (instrs : InstructionSet) (instruction : Instruction) :
    Except SetupError InstructionSet :=
  if allowed : instruction.operation.allows instruction.mode then
    match instrs.get instruction.opcode with
    | some existing => .error (.duplicateOpcode instruction.opcode existing.text)
    | none => .ok (instrs.insert instruction allowed)
  else
    .error (.unsupportedMode instruction.opcode instruction.mnemonic instruction.mode)

/-- Register a list of instructions, up to the first that is refused. -/
def registerAll (instrs : InstructionSet) (list : List Instruction) :
    Except SetupError InstructionSet :=
  list.foldlM register instrs

/-- Register those instructions of a list that are accepted, and tell what became of each. -/
def registerEach (instrs : InstructionSet) :
    List Instruction → List (Except SetupError Unit) × InstructionSet
  | [] => ([], instrs)
  | instruction :: rest =>
    match instrs.register instruction with
    | .ok next =>
      let (results, last) := next.registerEach rest
      (.ok () :: results, last)
    | .error error =>
      let (results, last) := instrs.registerEach rest
      (.error error :: results, last)

/-! ## Queries -/

/-- The instructions in ascending order of their opcodes. -/
def toList (instrs : InstructionSet) : List Instruction :=
  instrs.slots.toList.filterMap id

/-- The instruction with the smallest opcode that has a mode and is called `mnemonic`. -/
def find (instrs : InstructionSet) (mnemonic : String) (mode : AddressingMode) :
    Option Instruction :=
  instrs.toList.find? fun instruction => instruction.mode = mode && instruction.isCalled mnemonic

/-- The number of opcodes that have an instruction. -/
def size (instrs : InstructionSet) : Nat :=
  instrs.toList.length

/-- Whether no opcode has an instruction. -/
def isEmpty (instrs : InstructionSet) : Bool :=
  instrs.size == 0

end InstructionSet

end Mos6502

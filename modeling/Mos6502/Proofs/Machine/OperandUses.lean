import Mos6502.Instruction.Set
import Mos6502.Proofs.Machine.Mirrored

/-!
# Uses of operands

Loading from an operand and storing to one are defined for every operand, one that does not exist
included: a zero is loaded from it, and what is stored to it is lost. Which operands an instruction
really uses is told by a bus beside which each use is noted (`Tracked`). The instruction is the same
one: of the actions that it is made of, only its loads and stores take a note besides
(`notingActions`).

**Forgetting the notes** (`mirrors_notingActions`). Without its notes a tracked bus is the bus. So
an instruction that notes its uses does what it always does.

**Buses without notes** (`mirrored_track`). A bus is also a tracked one, with any notes that were
there before. So finding an operand, which uses the bus only, takes no note.

**Modes and operands** (`located_of_allows`). Only the mode without operand finds none, and only the
mode of the accumulator finds that. What an operation allows was fixed elsewhere and knows nothing
of this: no operation that uses an operand allows the first of these modes, and only a shift allows
the second.

Main result: `properUses_execute`, the operands that are used are there if the operation allows the
mode.
-/

namespace Mos6502

/-! ## Uses -/

/-- A use of an operand. -/
inductive OperandUse where
  /-- The value was loaded. -/
  | load (operand : Operand) (value : UInt8)
  /-- The value was stored. -/
  | store (operand : Operand) (value : UInt8)
  deriving DecidableEq, Repr

/-- The operand that is used. -/
def OperandUse.operand : OperandUse → Operand
  | load operand _ => operand
  | store operand _ => operand

/-- The uses that an operation makes of its operand. What a shift stores is what it loaded, shifted;
a jump finds its target by itself. -/
def Operation.usesOf (operation : Operation) (operand : Operand) (value : UInt8) :
    List OperandUse :=
  match operation with
  | adc | and | lda => [.load operand value]
  | asl => [.load operand value, .store operand (value <<< 1)]
  | sta => [.store operand value]
  | jmp | nop => []

theorem Operation.operand_of_mem_usesOf {operation : Operation} {operand : Operand} {value : UInt8}
    {use : OperandUse} (h : use ∈ operation.usesOf operand value) : use.operand = operand := by
  cases operation with
  | adc | and | lda | sta =>
    obtain rfl := List.mem_singleton.mp h
    rfl
  | asl =>
    obtain rfl | hstore := List.mem_cons.mp h
    · rfl
    · obtain rfl := List.mem_singleton.mp hstore
      rfl
  | jmp | nop => cases h

/-- The uses that an instruction makes of operands are as they should be. -/
structure Instruction.ProperUses (instruction : Instruction) (uses : List OperandUse) : Prop where
  made : ∃ operand value, uses = instruction.operation.usesOf operand value
  /-- No value is made up and none is lost. -/
  present : ∀ use ∈ uses, use.operand ≠ .none
  accumulator : ∀ use ∈ uses, use.operand = .accumulator → instruction.operation = .asl
  /-- The mode of a jump is the one that it decodes by itself. -/
  jump : instruction.operation = .jmp → instruction.mode = .absolute

/-! ## What an operation allows -/

namespace Operation

variable {operation : Operation} {mode : AddressingMode}

theorem eq_nop_of_allows_implied (h : operation.allows .implied) : operation = .nop := by
  cases operation with
  | nop => rfl
  | _ => exact absurd h (by decide)

theorem eq_asl_of_allows_accumulator (h : operation.allows .accumulator) : operation = .asl := by
  cases operation with
  | asl => rfl
  | _ => exact absurd h (by decide)

theorem eq_absolute_of_jmp_allows (h : jmp.allows mode) : mode = .absolute :=
  List.mem_singleton.mp (of_decide_eq_true h)

end Operation

/-! ## Buses with notes -/

/-- A bus, and the uses of operands that were noted beside it. -/
structure Tracked (β : Type) where
  bus : β
  uses : List OperandUse := []

/-- A bus with the uses that were noted before. -/
def Tracked.track {β : Type} (uses : List OperandUse) (bus : β) : Tracked β where
  bus := bus
  uses := uses

namespace Bus

variable {β : Type} [Bus β]

instance : Bus (Tracked β) where
  size tracked := size tracked.bus
  read address := fun ⟨bus, uses⟩ =>
    let (value, bus) := (read address).run bus
    (value, ⟨bus, uses⟩)
  write address value := fun ⟨bus, uses⟩ =>
    let ((), bus) := (write address value).run bus
    ((), ⟨bus, uses⟩)

theorem mirrored_tracked : Mirrored (Tracked.bus (β := β)) where
  size _ := rfl
  read _ _ := rfl
  write _ _ _ := rfl

theorem mirrored_track (uses : List OperandUse) : Mirrored (Tracked.track (β := β) uses) where
  size _ := rfl
  read _ _ := rfl
  write _ _ _ := rfl

end Bus

namespace Machine

variable {β : Type} [Bus β]

/-! ## Instructions that note their uses -/

omit [Bus β] in
/-- Note a use of an operand. -/
def note (use : OperandUse) : StateM (Machine (Tracked β)) Unit :=
  modify fun ⟨registers, bus, uses⟩ => ⟨registers, bus, uses ++ [use]⟩

/-- The actions of a machine, of which loads and stores are noted. -/
@[reducible]
def notingActions : Actions (StateM (Machine (Tracked β))) :=
  { actions with
    load := fun operand => do
      let value ← load operand
      note (.load operand value)
      return value
    store := fun operand value => do
      store operand value
      note (.store operand value) }

theorem mirrors_notingActions :
    notingActions.Mirrored (mapBus (Tracked.bus (β := β))) actions :=
  { mirrored_actions Bus.mirrored_tracked with
    load := fun operand machine => mirrors_load Bus.mirrored_tracked operand machine
    store := fun operand value machine => mirrors_store Bus.mirrored_tracked operand value machine }

variable (machine : Machine β) (uses : List OperandUse)

theorem run_load_noting (operand : Operand) :
    (notingActions.load operand).run (machine.mapBus (Tracked.track uses)) =
      (((load operand).run machine).1, ((load operand).run machine).2.mapBus
        (Tracked.track (uses ++ [.load operand ((load operand).run machine).1]))) := by
  show (StateT.run (load operand >>= fun value => note (.load operand value) >>= fun _ => _) _) = _
  rw [StateT.run_bind, mirrors_load (Bus.mirrored_track uses) operand machine]
  rfl

theorem run_store_noting (operand : Operand) (value : UInt8) :
    (notingActions.store operand value).run (machine.mapBus (Tracked.track uses)) =
      ((), ((store operand value).run machine).2.mapBus
        (Tracked.track (uses ++ [.store operand value]))) := by
  show (StateT.run (store operand value >>= fun _ => note (.store operand value)) _) = _
  rw [StateT.run_bind, mirrors_store (Bus.mirrored_track uses) operand value machine]
  rfl

theorem run_registers_noting :
    (notingActions.registers).run (machine.mapBus (Tracked.track uses)) =
      (machine.registers, machine.mapBus (Tracked.track uses)) :=
  rfl

theorem run_modifyRegisters_noting (f : Registers → Registers) :
    (notingActions.modifyRegisters f).run (machine.mapBus (Tracked.track uses)) =
      ((), mapBus (Tracked.track uses) ⟨f machine.registers, machine.bus⟩) :=
  rfl

/-! ## Modes and operands -/

/-- Where the operand of the instruction at the program counter is. -/
def located (mode : AddressingMode) : Operand :=
  ((locate mode).run machine).1

/-- **Every operand is in memory**, but for the two modes that say otherwise. -/
theorem located_cases (mode : AddressingMode) :
    mode = .implied ∧ machine.located mode = .none ∨
      mode = .accumulator ∧ machine.located mode = .accumulator ∨
      ∃ address, machine.located mode = .address address := by
  cases mode with
  | implied => exact .inl ⟨rfl, rfl⟩
  | accumulator => exact .inr (.inl ⟨rfl, rfl⟩)
  | _ => exact .inr (.inr ⟨_, rfl⟩)

/-- **What the mode finds fits what the operation allows.** -/
theorem located_of_allows {operation : Operation} {mode : AddressingMode}
    (h : operation.allows mode) :
    operation = .nop ∨ operation = .asl ∧ machine.located mode = .accumulator ∨
      ∃ address, machine.located mode = .address address := by
  obtain ⟨rfl, -⟩ | ⟨rfl, hlocated⟩ | hlocated := machine.located_cases mode
  · exact .inl (Operation.eq_nop_of_allows_implied h)
  · exact .inr (.inl ⟨Operation.eq_asl_of_allows_accumulator h, hlocated⟩)
  · exact .inr (.inr hlocated)

/-! ## Uses of an instruction -/

/-- Finding an operand takes no note. -/
theorem run_locate_track (mode : AddressingMode) :
    (locate mode).run (machine.mapBus (Tracked.track uses)) =
      (machine.located mode, ((locate mode).run machine).2.mapBus (Tracked.track uses)) :=
  (mirrored_actions (Bus.mirrored_track uses)).locate mode machine

theorem run_loadOperand_noting (mode : AddressingMode) :
    ∃ (value : UInt8) (after : Machine β),
      (notingActions.loadOperand mode).run (machine.mapBus (Tracked.track uses)) =
        (value, after.mapBus (Tracked.track (uses ++ [.load (machine.located mode) value]))) := by
  unfold Actions.loadOperand
  rw [StateT.run_bind, run_locate_track]
  exact ⟨_, _, run_load_noting _ uses _⟩

theorem run_shiftLeft_noting (mode : AddressingMode) :
    ∃ (value : UInt8) (after : Machine β),
      (notingActions.shiftLeft mode).run (machine.mapBus (Tracked.track uses)) =
        ((), after.mapBus (Tracked.track
          (uses ++ [.load (machine.located mode) value,
            .store (machine.located mode) (value <<< 1)]))) := by
  unfold Actions.shiftLeft
  rw [StateT.run_bind, run_locate_track]
  show ∃ _ _, StateT.run (notingActions.load (machine.located mode) >>= _) _ = _
  rw [StateT.run_bind, run_load_noting]
  show ∃ _ _, StateT.run (notingActions.modifyRegisters _ >>= _) _ = _
  rw [StateT.run_bind, run_modifyRegisters_noting]
  show ∃ _ _, (notingActions.store (machine.located mode) _).run _ = _
  rw [run_store_noting, List.append_assoc]
  exact ⟨_, _, rfl⟩

/-- Every use is one of the operand that the mode finds. -/
theorem run_execute_noting (instruction : Instruction) :
    ∃ (value : UInt8) (after : Machine β),
      (notingActions.execute instruction).run (machine.mapBus (Tracked.track uses)) =
        ((), after.mapBus (Tracked.track
          (uses ++ instruction.operation.usesOf (machine.located instruction.mode) value))) := by
  obtain ⟨opcode, mnemonic, mode, cycles, operation, size⟩ := instruction
  have hquiet (uses : List OperandUse) := mirrored_actions (Bus.mirrored_track (β := β) uses)
  unfold Actions.execute
  cases operation with
  | adc | and | lda =>
    obtain ⟨value, loaded, hload⟩ := machine.run_loadOperand_noting uses mode
    rw [StateT.run_bind, hload]
    show ∃ _ _, StateT.run (notingActions.modifyRegisters _ >>= _) _ = _
    rw [StateT.run_bind, run_modifyRegisters_noting]
    exact ⟨value, _, (hquiet _).advance size _⟩
  | asl =>
    obtain ⟨value, shifted, hshift⟩ := machine.run_shiftLeft_noting uses mode
    rw [StateT.run_bind, hshift]
    exact ⟨value, _, (hquiet _).advance size shifted⟩
  | sta =>
    rw [StateT.run_bind, run_locate_track]
    show ∃ _ _, StateT.run (notingActions.registers >>= _) _ = _
    rw [StateT.run_bind, run_registers_noting]
    show ∃ _ _, StateT.run (notingActions.store (machine.located mode) _ >>= _) _ = _
    rw [StateT.run_bind, run_store_noting]
    exact ⟨_, _, (hquiet _).advance size _⟩
  | jmp =>
    show ∃ _ _, _ = ((), mapBus (Tracked.track (uses ++ [])) _)
    rw [List.append_nil]
    exact ⟨0, _, (hquiet uses).jump machine⟩
  | nop =>
    show ∃ _ _, _ = ((), mapBus (Tracked.track (uses ++ [])) _)
    rw [List.append_nil]
    exact ⟨0, _, (hquiet uses).advance size machine⟩

/-- **An instruction that is allowed uses operands that are there.** -/
theorem properUses_execute {instruction : Instruction}
    (h : instruction.operation.allows instruction.mode) :
    instruction.ProperUses
      ((notingActions.execute instruction).run (machine.mapBus (Tracked.track []))).2.bus.uses := by
  obtain ⟨value, after, hexecute⟩ := machine.run_execute_noting [] instruction
  rw [hexecute]
  show instruction.ProperUses
    (instruction.operation.usesOf (machine.located instruction.mode) value)
  have hsafe : ∀ use ∈ instruction.operation.usesOf (machine.located instruction.mode) value,
      use.operand ≠ .none ∧ (use.operand = .accumulator → instruction.operation = .asl) := by
    intro use huse
    rw [Operation.operand_of_mem_usesOf huse]
    obtain hnop | ⟨hasl, hlocated⟩ | ⟨address, hlocated⟩ := machine.located_of_allows h
    · rw [hnop] at huse
      cases huse
    · rw [hlocated]
      exact ⟨nofun, fun _ => hasl⟩
    · rw [hlocated]
      exact ⟨nofun, nofun⟩
  refine ⟨⟨_, value, rfl⟩, fun use huse => (hsafe use huse).1, fun use huse => (hsafe use huse).2,
    fun hjump => ?_⟩
  rw [hjump] at h
  exact Operation.eq_absolute_of_jmp_allows h

end Machine

end Mos6502

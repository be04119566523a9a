import Mos6502.Machine.Execute
import Mos6502.Proofs.Memory.Mirrored

/-!
# Mirrored instructions

An instruction is made of actions and of nothing else. If the actions on one kind of state are
mirrored by the actions on another, one by one, then so are the instructions that are made of them
(`Actions.Mirrored.execute`).

A machine on a bus that has an image has an image itself: the same registers, and the image of the
bus. Main result: `Machine.mirrors_execute`, an instruction does to both what it does to one of
them.
-/

namespace Mos6502

/-! ## Instructions -/

namespace Actions

variable {σ σ' : Type}

/-- What an action does to a state, its mirror does to the image of the state. -/
structure Mirrored (image : σ → σ') (actions : Actions (StateM σ)) (mirror : Actions (StateM σ')) :
    Prop where
  registers : Mirrors image actions.registers mirror.registers
  modifyRegisters (f : Registers → Registers) :
    Mirrors image (actions.modifyRegisters f) (mirror.modifyRegisters f)
  fetch (offset : Nat) : Mirrors image (actions.fetch offset) (mirror.fetch offset)
  locate (mode : AddressingMode) : Mirrors image (actions.locate mode) (mirror.locate mode)
  load (operand : Operand) : Mirrors image (actions.load operand) (mirror.load operand)
  store (operand : Operand) (value : UInt8) :
    Mirrors image (actions.store operand value) (mirror.store operand value)
  goTo (address : Nat) : Mirrors image (actions.goTo address) (mirror.goTo address)
  advance (size : UInt8) : Mirrors image (actions.advance size) (mirror.advance size)

namespace Mirrored

variable {image : σ → σ'} {actions : Actions (StateM σ)} {mirror : Actions (StateM σ')}

theorem loadOperand (h : Mirrored image actions mirror) (mode : AddressingMode) :
    Mirrors image (actions.loadOperand mode) (mirror.loadOperand mode) :=
  (h.locate mode).bind fun operand => h.load operand

theorem shiftLeft (h : Mirrored image actions mirror) (mode : AddressingMode) :
    Mirrors image (actions.shiftLeft mode) (mirror.shiftLeft mode) :=
  (h.locate mode).bind fun operand => (h.load operand).bind fun value =>
    (h.modifyRegisters _).bind fun _ => h.store operand (value <<< 1)

theorem jump (h : Mirrored image actions mirror) : Mirrors image actions.jump mirror.jump :=
  (h.fetch 1).bind fun _ => (h.fetch 2).bind fun _ => h.goTo _

/-- **Instructions are mirrored** if the actions are of which they are made. -/
theorem execute (h : Mirrored image actions mirror) (instruction : Instruction) :
    Mirrors image (actions.execute instruction) (mirror.execute instruction) := by
  unfold Actions.execute
  cases instruction.operation with
  | adc | and | lda =>
    exact (h.loadOperand _).bind fun _ => (h.modifyRegisters _).bind fun _ => h.advance _
  | asl => exact (h.shiftLeft _).bind fun _ => h.advance _
  | jmp => exact h.jump
  | nop => exact h.advance _
  | sta =>
    exact (h.locate _).bind fun operand => h.registers.bind fun _ =>
      (h.store operand _).bind fun _ => h.advance _

end Mirrored

end Actions

/-! ## Machines -/

namespace Machine

variable {β γ : Type}

/-- The machine on the image of its bus. -/
def mapBus (image : β → γ) (machine : Machine β) : Machine γ where
  registers := machine.registers
  bus := image machine.bus

theorem mirrors_modifyRegisters (image : β → γ) (f : Registers → Registers) :
    Mirrors (mapBus image) (modifyRegisters f) (modifyRegisters f) :=
  fun _ => rfl

theorem mirrors_onBus {α : Type} {image : β → γ} {action : StateM β α} {mirror : StateM γ α}
    (h : Mirrors image action mirror) :
    Mirrors (mapBus image) (onBus action) (onBus mirror) := by
  intro machine
  show ((mirror.run (image machine.bus)).1,
    (⟨machine.registers, (mirror.run (image machine.bus)).2⟩ : Machine γ)) = _
  rw [h machine.bus]
  rfl

variable [Bus β] [Bus γ] {image : β → γ}

theorem mirrors_fetch (h : Bus.Mirrored image) (offset : Nat) :
    Mirrors (mapBus image) (fetch offset) (fetch offset) :=
  .get_bind fun _ => mirrors_onBus (h.read _)

theorem mirrors_load (h : Bus.Mirrored image) (operand : Operand) :
    Mirrors (mapBus image) (load operand) (load operand) := by
  cases operand with
  | none => exact .pure 0
  | accumulator => exact .get_bind fun _ => .pure _
  | address address => exact mirrors_onBus (h.read address)

theorem mirrors_store (h : Bus.Mirrored image) (operand : Operand) (value : UInt8) :
    Mirrors (mapBus image) (store operand value) (store operand value) := by
  cases operand with
  | none => exact .pure ()
  | accumulator => exact mirrors_modifyRegisters image (·.set .a value)
  | address address => exact mirrors_onBus (h.write address value)

theorem mirrors_goTo (h : Bus.Mirrored image) (address : Nat) :
    Mirrors (mapBus image) (goTo address) (goTo address) := by
  intro machine
  show ((), (⟨machine.registers.setPc
    (Bus.reduce (image machine.bus) address).toUInt16, _⟩ : Machine γ)) = _
  rw [h.reduce]
  rfl

theorem mirrored_actions (h : Bus.Mirrored image) :
    actions.Mirrored (mapBus image) actions where
  registers := .get_bind fun _ => .pure _
  modifyRegisters := mirrors_modifyRegisters image
  fetch := mirrors_fetch h
  locate mode := .get_bind fun _ => mirrors_onBus (h.locate mode _)
  load := mirrors_load h
  store := mirrors_store h
  goTo := mirrors_goTo h
  advance _ := .get_bind fun _ => mirrors_goTo h _

/-- **Instructions do the same** on a bus and on its image. -/
theorem mirrors_execute (h : Bus.Mirrored image) (instruction : Instruction) :
    Mirrors (mapBus image) (execute instruction) (execute instruction) :=
  (mirrored_actions h).execute instruction

end Machine

end Mos6502

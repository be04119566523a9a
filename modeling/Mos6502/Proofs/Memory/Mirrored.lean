import Mos6502.Addressing.Operand
import Mos6502.Memory.Recorded

/-!
# Mirrored buses

**Mirrored actions** (`Mirrors`). An action on a state is mirrored by an action on an image of the
state if both give the same result and the image of the one state is the other. Actions in a row
are mirrored if each of them is.

**Mirrored buses** (`Bus.Mirrored`). A bus may have an image that is a bus itself, of the same size,
such that single reads and writes are mirrored. A recorded bus has one: the bus that it records.

The uses that a machine makes of a bus are then mirrored by the same uses of the image: reading
everything, and finding an operand (`Bus.Mirrored.locate`). Addresses reach the bus reduced on some
ways and raw on others. It makes no difference, since a bus and its image have one size.
-/

namespace Mos6502

/-! ## Mirrored actions -/

/-- What `action` does to a state, `mirror` does to the image of the state, with the same
result. -/
def Mirrors {σ σ' α : Type} (image : σ → σ') (action : StateM σ α) (mirror : StateM σ' α) : Prop :=
  ∀ state, mirror.run (image state) = ((action.run state).1, image (action.run state).2)

namespace Mirrors

variable {σ σ' α γ : Type} {image : σ → σ'}

theorem pure (value : α) : Mirrors image (Pure.pure value) (Pure.pure value) :=
  fun _ => rfl

theorem bind {action : StateM σ α} {mirror : StateM σ' α} {next : α → StateM σ γ}
    {next' : α → StateM σ' γ} (h : Mirrors image action mirror)
    (hnext : ∀ value, Mirrors image (next value) (next' value)) :
    Mirrors image (action >>= next) (mirror >>= next') := by
  intro state
  rw [StateT.run_bind, h state]
  exact hnext (action.run state).1 (action.run state).2

/-- An action that looks at the state first. -/
theorem get_bind {next : σ → StateM σ γ} {next' : σ' → StateM σ' γ}
    (h : ∀ state, Mirrors image (next state) (next' (image state))) :
    Mirrors image (get >>= next) (get >>= next') :=
  fun state => h state state

theorem mapM {ι : Type} {action : ι → StateM σ α} {mirror : ι → StateM σ' α}
    (h : ∀ i, Mirrors image (action i) (mirror i)) (list : List ι) :
    Mirrors image (list.mapM action) (list.mapM mirror) := by
  induction list with
  | nil => exact .pure []
  | cons i rest ih =>
    rw [List.mapM_cons, List.mapM_cons]
    exact (h i).bind fun _ => ih.bind fun _ => .pure _

end Mirrors

/-! ## Mirrored buses -/

namespace Bus

variable {β γ : Type} [Bus β] [Bus γ]

/-- What is done to a bus happens to its image. -/
structure Mirrored (image : β → γ) : Prop where
  size (bus : β) : size (image bus) = size bus
  read (address : Nat) : Mirrors image (read address) (read address)
  write (address : Nat) (value : UInt8) : Mirrors image (write address value) (write address value)

namespace Mirrored

variable {image : β → γ}

theorem reduce (h : Mirrored image) (bus : β) (address : Nat) :
    Bus.reduce (image bus) address = Bus.reduce bus address :=
  congrArg (address % ·) (h.size bus)

theorem readAll (h : Mirrored image) : Mirrors image readAll readAll :=
  .get_bind fun bus => by
    rw [h.size]
    exact .mapM h.read _

/-! ## Operands -/

theorem absoluteAddress (h : Mirrored image) (pc : UInt16) :
    Mirrors image (AddressingMode.absoluteAddress pc) (AddressingMode.absoluteAddress pc) :=
  (h.read _).bind fun _ => (h.read _).bind fun _ => .pure _

theorem zeroPagePointer (h : Mirrored image) (address : UInt8) :
    Mirrors image (AddressingMode.zeroPagePointer address)
      (AddressingMode.zeroPagePointer address) :=
  (h.read _).bind fun _ => (h.read _).bind fun _ => .pure _

theorem inMemory (h : Mirrored image) (address : Nat) :
    Mirrors image (AddressingMode.inMemory address) (AddressingMode.inMemory address) :=
  .get_bind fun bus => by
    rw [h.reduce]
    exact .pure _

/-- **Operands are found in the same places.** -/
theorem locate (h : Mirrored image) (mode : AddressingMode) (regs : Registers) :
    Mirrors image (mode.locate regs) (mode.locate regs) := by
  cases mode with
  | implied | accumulator => exact .pure _
  | immediate => exact h.inMemory _
  | zeroPage | zeroPageX | indirectX => exact (h.read _).bind fun _ => h.inMemory _
  | absolute | absoluteX | absoluteY => exact (h.absoluteAddress _).bind fun _ => h.inMemory _
  | indirectY =>
    exact (h.read _).bind fun _ => (h.zeroPagePointer _).bind fun _ => h.inMemory _

end Mirrored

end Bus

end Mos6502

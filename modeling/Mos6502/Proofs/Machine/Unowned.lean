import Mos6502.Machine.Execute
import Mos6502.Proofs.Registers.Status

/-!
# Registers that no instruction owns

The index registers, the stack pointer and bits 2 to 5 of the status byte are set from outside only:
instructions read some of them and change none.

Instructions are made of few accesses, on whatever bus, and each of these accesses leaves the
unowned registers alone (`KeepsUnowned`). Of the status byte the updates write four flags only, and
these are the bits around 2 to 5 (`unowned_setFlag`).

Main result: `keepsUnowned_execute`.
-/

namespace Mos6502

namespace Registers

/-- The registers that no instruction owns are the same. -/
structure Unowned (regs regs' : Registers) : Prop where
  x : regs'.x = regs.x
  y : regs'.y = regs.y
  s : regs'.s = regs.s
  /-- Interrupt disable, decimal, break, and the bit that belongs to no flag. -/
  status (i : Nat) (hlow : 2 ≤ i) (hhigh : i ≤ 5) : regs'.statusBit i = regs.statusBit i

theorem Unowned.refl (regs : Registers) : regs.Unowned regs :=
  ⟨rfl, rfl, rfl, fun _ _ _ => rfl⟩

theorem Unowned.trans {regs regs' regs'' : Registers} (h : regs.Unowned regs')
    (h' : regs'.Unowned regs'') : regs.Unowned regs'' :=
  ⟨h'.x.trans h.x, h'.y.trans h.y, h'.s.trans h.s,
    fun i hlow hhigh => (h'.status i hlow hhigh).trans (h.status i hlow hhigh)⟩

/-! ## Updates -/

/-- Carry, zero, overflow and negative are outside of bits 2 to 5. -/
theorem unowned_setFlag (regs : Registers) {f : Flag} (h : f.position < 2 ∨ 5 < f.position)
    (on : Bool) : regs.Unowned (regs.setFlag f on) := by
  refine ⟨rfl, rfl, rfl, fun i hlow hhigh => ?_⟩
  rw [statusBit_setFlag regs f on (Nat.lt_of_le_of_lt hhigh (by decide)), if_neg (by omega)]

theorem unowned_set_a (regs : Registers) (value : UInt8) : regs.Unowned (regs.set .a value) :=
  ⟨rfl, rfl, rfl, fun _ _ _ => rfl⟩

theorem unowned_setPc (regs : Registers) (pc : UInt16) : regs.Unowned (regs.setPc pc) :=
  ⟨rfl, rfl, rfl, fun _ _ _ => rfl⟩

theorem unowned_withSignOf (regs : Registers) (result : UInt8) :
    regs.Unowned (regs.withSignOf result) :=
  (regs.unowned_setFlag (f := .zero) (by decide) _).trans
    (unowned_setFlag _ (f := .negative) (by decide) _)

theorem unowned_addWithCarry (regs : Registers) (value : UInt8) :
    regs.Unowned (regs.addWithCarry value) :=
  (((regs.unowned_setFlag (f := .carry) (by decide) _).trans
    (unowned_setFlag _ (f := .overflow) (by decide) _)).trans (unowned_withSignOf _ _)).trans
      (unowned_set_a _ _)

theorem unowned_loadAccumulator (regs : Registers) (value : UInt8) :
    regs.Unowned (regs.loadAccumulator value) :=
  (regs.unowned_withSignOf value).trans (unowned_set_a _ _)

theorem unowned_withShiftOf (regs : Registers) (value : UInt8) :
    regs.Unowned (regs.withShiftOf value) :=
  (regs.unowned_setFlag (f := .carry) (by decide) _).trans (unowned_withSignOf _ _)

end Registers

namespace Machine

variable {β α γ : Type}

/-! ## Actions -/

/-- An action leaves the registers alone that no instruction owns. -/
def KeepsUnowned (action : StateM (Machine β) α) : Prop :=
  ∀ machine : Machine β, machine.registers.Unowned (action.run machine).2.registers

namespace KeepsUnowned

theorem pure (value : α) : KeepsUnowned (β := β) (Pure.pure value) :=
  fun machine => .refl machine.registers

theorem bind {action : StateM (Machine β) α} {next : α → StateM (Machine β) γ}
    (h : KeepsUnowned action) (hnext : ∀ value, KeepsUnowned (next value)) :
    KeepsUnowned (action >>= next) := by
  intro machine
  rw [StateT.run_bind]
  exact (h machine).trans (hnext (action.run machine).1 (action.run machine).2)

/-- An action that looks at the machine first. -/
theorem get_bind {next : Machine β → StateM (Machine β) γ}
    (h : ∀ machine, KeepsUnowned (next machine)) : KeepsUnowned (get >>= next) :=
  fun machine => h machine machine

theorem mapM {ι : Type} {action : ι → StateM (Machine β) α} (h : ∀ i, KeepsUnowned (action i))
    (list : List ι) : KeepsUnowned (list.mapM action) := by
  induction list with
  | nil => exact .pure []
  | cons i rest ih =>
    rw [List.mapM_cons]
    exact (h i).bind fun _ => ih.bind fun _ => .pure _

theorem onBus (action : StateM β α) : KeepsUnowned (Machine.onBus action) :=
  fun machine => .refl machine.registers

end KeepsUnowned

/-! ## Accesses -/

variable [Bus β]

theorem keepsUnowned_fetch (offset : Nat) : KeepsUnowned (β := β) (fetch offset) :=
  .get_bind fun _ => .onBus _

theorem keepsUnowned_locate (mode : AddressingMode) : KeepsUnowned (β := β) (locate mode) :=
  .get_bind fun _ => .onBus _

theorem keepsUnowned_load (operand : Operand) : KeepsUnowned (β := β) (load operand) := by
  cases operand with
  | none => exact .pure 0
  | accumulator => exact .get_bind fun _ => .pure _
  | address address => exact .onBus _

theorem keepsUnowned_store (operand : Operand) (value : UInt8) :
    KeepsUnowned (β := β) (store operand value) := by
  cases operand with
  | none => exact .pure ()
  | accumulator => exact fun machine => machine.registers.unowned_set_a value
  | address address => exact .onBus _

theorem keepsUnowned_modifyRegisters {f : Registers → Registers}
    (h : ∀ regs : Registers, regs.Unowned (f regs)) :
    KeepsUnowned (β := β) (actions.modifyRegisters f) :=
  fun machine => h machine.registers

theorem keepsUnowned_goTo (address : Nat) : KeepsUnowned (β := β) (goTo address) :=
  fun machine => machine.registers.unowned_setPc _

theorem keepsUnowned_advance (size : UInt8) : KeepsUnowned (β := β) (advance size) :=
  .get_bind fun _ => keepsUnowned_goTo _

/-! ## Instructions -/

theorem keepsUnowned_loadOperand (mode : AddressingMode) :
    KeepsUnowned (β := β) (actions.loadOperand mode) :=
  (keepsUnowned_locate mode).bind fun operand => keepsUnowned_load operand

theorem keepsUnowned_shiftLeft (mode : AddressingMode) :
    KeepsUnowned (β := β) (actions.shiftLeft mode) :=
  (keepsUnowned_locate mode).bind fun operand => (keepsUnowned_load operand).bind fun value =>
    (keepsUnowned_modifyRegisters (·.unowned_withShiftOf value)).bind fun _ =>
      keepsUnowned_store operand (value <<< 1)

theorem keepsUnowned_jump : KeepsUnowned (β := β) actions.jump :=
  (keepsUnowned_fetch 1).bind fun _ => (keepsUnowned_fetch 2).bind fun _ => keepsUnowned_goTo _

/-- **No instruction changes the unowned registers.** -/
theorem keepsUnowned_execute (instruction : Instruction) :
    KeepsUnowned (β := β) (execute instruction) := by
  unfold execute Actions.execute
  cases instruction.operation with
  | adc =>
    exact (keepsUnowned_loadOperand _).bind fun value =>
      (keepsUnowned_modifyRegisters (·.unowned_addWithCarry value)).bind fun _ =>
        keepsUnowned_advance _
  | and =>
    exact (keepsUnowned_loadOperand _).bind fun value =>
      (keepsUnowned_modifyRegisters fun regs => regs.unowned_loadAccumulator _).bind fun _ =>
        keepsUnowned_advance _
  | asl => exact (keepsUnowned_shiftLeft _).bind fun _ => keepsUnowned_advance _
  | jmp => exact keepsUnowned_jump
  | lda =>
    exact (keepsUnowned_loadOperand _).bind fun value =>
      (keepsUnowned_modifyRegisters (·.unowned_loadAccumulator value)).bind fun _ =>
        keepsUnowned_advance _
  | nop => exact keepsUnowned_advance _
  | sta =>
    exact (keepsUnowned_locate _).bind fun operand => .get_bind fun _ =>
      (keepsUnowned_store operand _).bind fun _ => keepsUnowned_advance _

end Machine

end Mos6502

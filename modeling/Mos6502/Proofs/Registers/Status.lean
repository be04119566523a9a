import Mos6502.Registers

/-!
# The packed status byte

The status byte is seen as eight separate bits: one for each flag, and one that belongs to no
flag. An update of a flag changes its own bit and nothing else.

**Main result** (`Registers.flag_setFlag`, `Registers.spare_setFlag`). Setting one flag gives it
its new value, and leaves the six others and the spare bit alone.

The proof goes through the position of a flag in the byte: its mask is the power of two at that
position, and no two flags share one.
-/

namespace Mos6502

/-! ## Positions -/

/-- The position of a flag in the status byte. -/
def Flag.position : Flag → Nat
  | carry => 0
  | zero => 1
  | interruptDisable => 2
  | decimal => 3
  | brk => 4
  | overflow => 6
  | negative => 7

namespace Flag

theorem position_lt (f : Flag) : f.position < 8 := by
  cases f <;> decide

theorem position_inj {f g : Flag} : f.position = g.position ↔ f = g := by
  cases f <;> cases g <;> decide

theorem position_ne_five (f : Flag) : 5 ≠ f.position := by
  cases f <;> decide

theorem toBitVec_mask (f : Flag) : f.mask.toBitVec = BitVec.twoPow 8 f.position := by
  cases f <;> rfl

theorem twoPow_position_ne_zero (f : Flag) : BitVec.twoPow 8 f.position ≠ 0#8 := by
  cases f <;> decide

end Flag

namespace Registers

/-! ## Bits of the status byte -/

/-- A bit of the status byte. -/
def statusBit (regs : Registers) (i : Nat) : Bool :=
  regs.p.toBitVec.getLsbD i

/-- The bit of the status byte that belongs to no flag. -/
def spare (regs : Registers) : Bool :=
  regs.statusBit 5

theorem flag_eq_statusBit (regs : Registers) (f : Flag) :
    regs.flag f = regs.statusBit f.position := by
  have hmask : regs.p &&& f.mask = 0 ↔ regs.p.toBitVec &&& BitVec.twoPow 8 f.position = 0#8 := by
    rw [← f.toBitVec_mask, ← UInt8.toBitVec_and, ← UInt8.toBitVec_inj]
    rfl
  rw [Bool.eq_iff_iff, flag, decide_eq_true_iff, ne_eq, hmask, BitVec.and_twoPow, statusBit]
  cases regs.p.toBitVec.getLsbD f.position <;> simp [f.twoPow_position_ne_zero]

theorem statusBit_setFlag (regs : Registers) (f : Flag) (on : Bool) {i : Nat} (hi : i < 8) :
    (regs.setFlag f on).statusBit i = if i = f.position then on else regs.statusBit i := by
  unfold setFlag statusBit
  cases on with
  | false => by_cases h : i = f.position <;> simp [f.toBitVec_mask, h, hi, f.position_lt]
  | true => by_cases h : i = f.position <;> simp [f.toBitVec_mask, h, hi, f.position_lt]

/-! ## Updates of one flag -/

/-- **An update of a flag changes that flag alone.** -/
theorem flag_setFlag (regs : Registers) (f g : Flag) (on : Bool) :
    (regs.setFlag f on).flag g = if g = f then on else regs.flag g := by
  rw [flag_eq_statusBit, flag_eq_statusBit, statusBit_setFlag regs f on g.position_lt]
  simp only [Flag.position_inj]

theorem spare_setFlag (regs : Registers) (f : Flag) (on : Bool) :
    (regs.setFlag f on).spare = regs.spare := by
  unfold spare
  rw [statusBit_setFlag regs f on (by decide), if_neg f.position_ne_five]

@[simp] theorem setFlag_a (regs : Registers) (f : Flag) (on : Bool) :
    (regs.setFlag f on).a = regs.a := rfl
@[simp] theorem setFlag_x (regs : Registers) (f : Flag) (on : Bool) :
    (regs.setFlag f on).x = regs.x := rfl
@[simp] theorem setFlag_y (regs : Registers) (f : Flag) (on : Bool) :
    (regs.setFlag f on).y = regs.y := rfl
@[simp] theorem setFlag_s (regs : Registers) (f : Flag) (on : Bool) :
    (regs.setFlag f on).s = regs.s := rfl

/-! ## The sign bit -/

theorem signBit_ne_zero_iff (value : UInt8) : signBit value ≠ 0 ↔ 128 ≤ value.toNat := by
  have h : ∀ v : BitVec 8, (UInt8.ofBitVec v &&& 0x80 ≠ 0) = (128 ≤ v.toNat) := by decide +kernel
  exact iff_of_eq (h value.toBitVec)

end Registers

end Mos6502

import Mos6502.Clock.Pace

/-!
# The calls of a frame

The number of handler calls in a frame is the quotient of two frequencies, rounded up. It fits
into 64 bits and is never zero, so a number of calls determines the number of frames that are
needed for them (`Pace.framesFor`).
-/

namespace Mos6502.Pace

variable (pace : Pace)

/-- The handler calls of a frame, as a number. -/
def calls : Nat :=
  pace.callsPerFrame.toNat

theorem target_pos : 0 < pace.target.toNat :=
  Nat.pos_of_ne_zero fun h => pace.target_ne_zero (UInt64.toNat_inj.mp h)

theorem tick_pos : 0 < pace.tick.toNat :=
  Nat.pos_of_ne_zero fun h => pace.tick_ne_zero (UInt64.toNat_inj.mp h)

/-- **Rounding up does not overflow.** -/
theorem calls_eq :
    pace.calls = if pace.target.toNat % pace.tick.toNat = 0
      then pace.target.toNat / pace.tick.toNat
      else pace.target.toNat / pace.tick.toNat + 1 := by
  have hmod : pace.target % pace.tick = 0 ↔ pace.target.toNat % pace.tick.toNat = 0 := by
    rw [← UInt64.toNat_inj, UInt64.toNat_mod]
    rfl
  unfold calls callsPerFrame
  by_cases h : pace.target.toNat % pace.tick.toNat = 0
  · rw [if_pos (hmod.mpr h), if_pos h, UInt64.toNat_div]
  · rw [if_neg (mt hmod.mp h), if_neg h, UInt64.toNat_add, UInt64.toNat_div]
    have htick : 2 ≤ pace.tick.toNat := by
      have hpos := pace.tick_pos
      have hone : pace.tick.toNat ≠ 1 := fun hone => h (by rw [hone, Nat.mod_one])
      omega
    have hquot : pace.target.toNat / pace.tick.toNat ≤ pace.target.toNat / 2 :=
      Nat.div_le_div_left htick (by decide)
    have hlt := pace.target.toNat_lt
    exact Nat.mod_eq_of_lt (by show _ + 1 < _; omega)

theorem calls_pos : 0 < pace.calls := by
  rw [calls_eq]
  split
  · rename_i h
    exact Nat.div_pos (Nat.le_of_dvd pace.target_pos (Nat.dvd_of_mod_eq_zero h)) pace.tick_pos
  · exact Nat.succ_pos _

/-! ## Frames for calls -/

/-- The frames that `n` calls need. -/
def framesFor (n : Nat) : Nat :=
  (n + pace.calls - 1) / pace.calls

theorem le_framesFor_mul (n : Nat) : n ≤ pace.framesFor n * pace.calls := by
  have hpos := pace.calls_pos
  have h := Nat.lt_div_mul_add (a := n + pace.calls - 1) hpos
  unfold framesFor
  omega

/-- With fewer frames the calls are not all made. -/
theorem mul_lt_of_lt_framesFor {n i : Nat} (h : i < pace.framesFor n) : i * pace.calls < n := by
  have hpos := pace.calls_pos
  have hle : (i + 1) * pace.calls ≤ n + pace.calls - 1 := (Nat.le_div_iff_mul_le hpos).mp h
  rw [Nat.succ_mul] at hle
  omega

theorem framesFor_one : pace.framesFor 1 = 1 := by
  unfold framesFor
  rw [Nat.add_sub_cancel_left]
  exact Nat.div_self pace.calls_pos

theorem framesFor_pos {n : Nat} (h : 0 < n) : 0 < pace.framesFor n := by
  have hle := pace.le_framesFor_mul n
  refine Nat.pos_of_ne_zero fun hzero => ?_
  rw [hzero, Nat.zero_mul] at hle
  omega

end Mos6502.Pace

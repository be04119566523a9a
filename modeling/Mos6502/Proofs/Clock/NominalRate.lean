import Mathlib.Algebra.Order.Floor.Div
import Mos6502.Clock.Basic
import Mos6502.Proofs.Clock.Frequency
import Mos6502.Proofs.Clock.Pace

/-!
# The nominal rate of a clock

As long as no frame is late, a clock makes the calls of one frame in each interval
(`Pace.nominalRate`). The calls are rounded up and the interval is rounded down, so both roundings
make the clock faster than it was told to be, and never slower.

**Bounds** (`Pace.target_le`, `Pace.sub_one_mul_lt`, `Pace.interval_mul_tick_le`). With these the
rate is compared with the target in whole numbers:
`target * interval ≤ calls * tick * interval ≤ calls * 1000`.

**Equality** (`Pace.calls_mul_eq_iff`). The outer terms are equal if and only if neither rounding
loses anything, so if the tick frequency divides both what it is divided into.

Main result: `Clock.nominal_rate_reaches_target`.
-/

namespace Mos6502

namespace Pace

variable (pace : Pace)

/-! ## The calls of a frame -/

theorem target_le : pace.target.toNat ≤ pace.calls * pace.tick.toNat := by
  have hdivision := Nat.div_add_mod' pace.target.toNat pace.tick.toNat
  have hrest := Nat.mod_lt pace.target.toNat pace.tick_pos
  rw [calls_eq]
  split
  · omega
  · rw [Nat.succ_mul]
    omega

/-- One call less in a frame would be too few. -/
theorem sub_one_mul_lt : (pace.calls - 1) * pace.tick.toNat < pace.target.toNat := by
  have hdivision := Nat.div_add_mod' pace.target.toNat pace.tick.toNat
  have hpos := pace.calls_pos
  have htick := pace.tick_pos
  rw [calls_eq] at hpos ⊢
  by_cases hexact : pace.target.toNat % pace.tick.toNat = 0
  · rw [if_pos hexact] at hpos ⊢
    have hle := Nat.le_mul_of_pos_left pace.tick.toNat hpos
    rw [Nat.sub_one_mul]
    omega
  · rw [if_neg hexact, Nat.add_sub_cancel]
    omega

/-- **Rounded up.** Nothing overflows on the way. -/
theorem calls_eq_ceilDiv : pace.calls = pace.target.toNat ⌈/⌉ pace.tick.toNat := by
  refine Nat.le_antisymm ?_ ((ceilDiv_le_iff_le_mul pace.tick_pos).mpr ?_)
  · by_contra hlt
    have hle : pace.target.toNat ⌈/⌉ pace.tick.toNat ≤ pace.calls - 1 := by omega
    have henough := (ceilDiv_le_iff_le_mul pace.tick_pos).mp hle
    have hfew := pace.sub_one_mul_lt
    rw [Nat.mul_comm] at henough
    omega
  · rw [Nat.mul_comm]
    exact pace.target_le

/-! ## The interval -/

theorem interval_mul_tick_le : pace.intervalMilliseconds * pace.tick.toNat ≤ 1000 :=
  Nat.div_mul_le_self 1000 pace.tick.toNat

theorem interval_pos (h : pace.tick.toNat ≤ 1000) : 0 < pace.intervalMilliseconds :=
  Nat.div_pos h pace.tick_pos

/-! ## Both together -/

/-- **No rounding makes the clock slower.** -/
theorem target_mul_le :
    pace.target.toNat * pace.intervalMilliseconds ≤ pace.calls * 1000 :=
  calc pace.target.toNat * pace.intervalMilliseconds
      ≤ pace.calls * pace.tick.toNat * pace.intervalMilliseconds :=
        Nat.mul_le_mul_right _ pace.target_le
    _ = pace.calls * (pace.intervalMilliseconds * pace.tick.toNat) := by
        rw [Nat.mul_assoc, Nat.mul_comm pace.tick.toNat]
    _ ≤ pace.calls * 1000 := Nat.mul_le_mul_left _ pace.interval_mul_tick_le

theorem calls_eq_of_dvd (h : pace.tick.toNat ∣ pace.target.toNat) :
    pace.calls * pace.tick.toNat = pace.target.toNat := by
  rw [calls_eq, if_pos (Nat.mod_eq_zero_of_dvd h), Nat.div_mul_cancel h]

/-- **The rate is met exactly** if and only if nothing is rounded. -/
theorem calls_mul_eq_iff (h : pace.tick.toNat ≤ 1000) :
    pace.calls * 1000 = pace.target.toNat * pace.intervalMilliseconds ↔
      pace.tick.toNat ∣ pace.target.toNat ∧ pace.tick.toNat ∣ 1000 := by
  have hcalls := pace.target_le
  have hinterval := pace.interval_mul_tick_le
  constructor
  · intro hexact
    have hmiddle : pace.calls * pace.tick.toNat * pace.intervalMilliseconds =
        pace.calls * (pace.intervalMilliseconds * pace.tick.toNat) := by
      rw [Nat.mul_assoc, Nat.mul_comm pace.tick.toNat]
    have hle := Nat.mul_le_mul_right pace.intervalMilliseconds hcalls
    have hle' := Nat.mul_le_mul_left pace.calls hinterval
    have htarget : pace.target.toNat = pace.calls * pace.tick.toNat :=
      Nat.eq_of_mul_eq_mul_right (pace.interval_pos h) (by omega)
    have hthousand : pace.intervalMilliseconds * pace.tick.toNat = 1000 :=
      Nat.eq_of_mul_eq_mul_left pace.calls_pos (by omega)
    exact ⟨⟨_, htarget.trans (Nat.mul_comm _ _)⟩, ⟨_, hthousand.symm.trans (Nat.mul_comm _ _)⟩⟩
  · rintro ⟨htarget, hthousand⟩
    have hthousand' : pace.intervalMilliseconds * pace.tick.toNat = 1000 :=
      Nat.div_mul_cancel hthousand
    rw [← hthousand', ← pace.calls_eq_of_dvd htarget, Nat.mul_assoc,
      Nat.mul_comm pace.tick.toNat]

/-! ## The rate -/

/-- The calls per second if every frame comes in time. -/
def nominalRate : ℚ :=
  perSecond pace.calls pace.interval

theorem nominalRate_eq :
    pace.nominalRate = ((pace.calls * 1000 : ℕ) : ℚ) / pace.intervalMilliseconds := by
  have hscale : (10 : ℚ) ^ 9 = 1000 * 1000000 := by norm_num
  rw [nominalRate, perSecond, interval, Duration.ofMilliseconds, div_div_eq_mul_div, hscale,
    Nat.cast_mul, Nat.cast_mul, Nat.cast_ofNat, Nat.cast_ofNat, ← mul_assoc,
    mul_div_mul_right _ _ (by norm_num)]

theorem target_le_nominalRate (h : pace.tick.toNat ≤ 1000) :
    (pace.target.toNat : ℚ) ≤ pace.nominalRate := by
  rw [nominalRate_eq, le_div_iff₀ (Nat.cast_pos.mpr (pace.interval_pos h)), ← Nat.cast_mul,
    Nat.cast_le]
  exact pace.target_mul_le

theorem nominalRate_eq_iff (h : pace.tick.toNat ≤ 1000) :
    pace.nominalRate = pace.target.toNat ↔
      pace.tick.toNat ∣ pace.target.toNat ∧ pace.tick.toNat ∣ 1000 := by
  rw [nominalRate_eq, div_eq_iff (Nat.cast_ne_zero.mpr (Nat.ne_of_gt (pace.interval_pos h))),
    ← Nat.cast_mul, Nat.cast_inj]
  exact pace.calls_mul_eq_iff h

end Pace

namespace Clock

/-- **A clock is never paced below its target.** For any two frequencies that are not zero, the
calls of a frame are the quotient rounded up. If frames are at least a millisecond apart, so many
calls in each interval make at least the target, and exactly the target if and only if the tick
frequency divides the target and a second of a thousand milliseconds. -/
theorem nominal_rate_reaches_target {target tick : UInt64} (htarget : target ≠ 0)
    (htick : tick ≠ 0) :
    ∃ clock : Clock, ofFrequencies target tick = .ok clock ∧
      clock.pace.callsPerFrame.toNat = target.toNat ⌈/⌉ tick.toNat ∧
      ((clock.pace.callsPerFrame.toNat : ℤ) - 1) * tick.toNat < target.toNat ∧
      (target.toNat : ℤ) ≤ clock.pace.callsPerFrame.toNat * tick.toNat ∧
      (tick.toNat ≤ 1000 →
        1 ≤ clock.pace.intervalMilliseconds ∧
        target.toNat * clock.pace.intervalMilliseconds ≤ clock.pace.callsPerFrame.toNat * 1000 ∧
        (clock.pace.callsPerFrame.toNat * 1000 = target.toNat * clock.pace.intervalMilliseconds ↔
          tick.toNat ∣ target.toNat ∧ tick.toNat ∣ 1000) ∧
        target.toNat ≤ clock.pace.nominalRate ∧
        (clock.pace.nominalRate = target.toNat ↔
          tick.toNat ∣ target.toNat ∧ tick.toNat ∣ 1000)) := by
  let pace : Pace := ⟨target, tick, htarget, htick⟩
  have hmade : Pace.ofFrequencies target tick = .ok pace := dif_pos ⟨htarget, htick⟩
  have hfew : ((pace.calls : ℤ) - 1) * tick.toNat < target.toNat := by
    have hcast := pace.calls_pos
    rw [← Nat.cast_one, ← Nat.cast_sub hcast]
    exact_mod_cast pace.sub_one_mul_lt
  refine ⟨{ pace }, by rw [ofFrequencies, hmade]; rfl, pace.calls_eq_ceilDiv, hfew,
    mod_cast pace.target_le, fun hslow => ?_⟩
  exact ⟨pace.interval_pos hslow, pace.target_mul_le, pace.calls_mul_eq_iff hslow,
    pace.target_le_nominalRate hslow, pace.nominalRate_eq_iff hslow⟩

/-- Sixty frames per second do not divide a second into whole milliseconds, so the default clock is
faster than its target. -/
theorem nominal_rate_reaches_target_default :
    (Pace.defaultTarget ≠ 0 ∧ Pace.defaultTick ≠ 0) ∧
      ∃ clock : Clock, ofFrequencies Pace.defaultTarget Pace.defaultTick = .ok clock ∧
        clock.pace.callsPerFrame.toNat = 16667 ∧ 1000000 < clock.pace.nominalRate := by
  have htarget : Pace.defaultTarget ≠ 0 := by decide
  have htick : Pace.defaultTick ≠ 0 := by decide
  obtain ⟨clock, hmade, hcalls, -, -, hrate⟩ := nominal_rate_reaches_target htarget htick
  obtain ⟨-, -, -, hle, hexact⟩ := hrate (by decide)
  refine ⟨⟨htarget, htick⟩, clock, hmade, hcalls, lt_of_le_of_ne hle fun heq => ?_⟩
  exact absurd (hexact.mp heq.symm).2 (by decide)

end Clock

end Mos6502

import Mos6502.Proofs.Clock.Calls
import Mos6502.Proofs.Host

/-!
# Deadlines

What a wait on a grid of deadlines ensures, however late it comes and however long it sleeps.

**Lawful time** (`LawfulTime`). Time does not run backwards while it is told, and a sleep is not
shorter than asked for. It may be longer, and any time may pass between two uses.

**Moving on** (`advance_eq`). A grid with an interval moves on by at least one interval and keeps in
step: the next deadline is a whole number of intervals away.

Main result: a wait does not end before its deadline (`next_le_reading_wait`).
-/

namespace Mos6502

/-! ## Lawful time -/

/-- A source of time that does not run backwards and sleeps long enough. -/
class LawfulTime (τ : Type) [TimeSource τ] : Prop where
  le_now (time : τ) :
    (TimeSource.now.run time).1 ≤ (TimeSource.now.run (TimeSource.now.run time).2).1
  le_sleep (time : τ) (span : Duration) :
    (TimeSource.now.run time).1 + span ≤
      (TimeSource.now.run ((TimeSource.sleep span).run time).2).1

instance : LawfulTime SimulatedTime where
  le_now time := Nat.le_succ time.elapsed
  le_sleep _ _ := Nat.le_refl _

namespace Host

variable {τ : Type} [TimeSource τ] [LawfulTime τ]

theorem reading_le_now (host : Host τ) : host.reading ≤ (Host.now.run host).2.reading :=
  LawfulTime.le_now host.time

theorem reading_le_sleep (host : Host τ) (span : Duration) :
    host.reading + span ≤ ((Host.sleep span).run host).2.reading :=
  LawfulTime.le_sleep host.time span

end Host

/-! ## Moving on -/

namespace FrameGrid

theorem advance_eq (grid : FrameGrid) (now : Instant) (h : 0 < grid.interval) :
    ∃ k, 1 ≤ k ∧ (grid.advance now).2 = ⟨grid.next + k * grid.interval, grid.interval⟩ := by
  unfold advance
  by_cases hnow : now < grid.next + grid.interval
  · rw [if_pos hnow]
    exact ⟨1, Nat.le_refl 1, by rw [Nat.one_mul]⟩
  · rw [if_neg hnow, if_neg (Nat.ne_of_gt h)]
    dsimp only
    generalize (((now - (grid.next + grid.interval)) / grid.interval).toUInt64 + 1).toUInt32.toNat =
      skipped
    refine ⟨1 + skipped, Nat.le_add_right 1 skipped, ?_⟩
    rw [Nat.add_mul, Nat.one_mul, Nat.mul_comm skipped, Nat.add_assoc]

variable {τ : Type} [TimeSource τ]

theorem run_wait_eq (grid : FrameGrid) (host : Host τ) :
    ∃ now : Instant, (grid.wait.run host).1 = grid.advance now := by
  show ∃ now : Instant, (StateT.run (if (Host.now.run host).1 < grid.next then _ else _ :
    StateM (Host τ) (UInt64 × FrameGrid)) (Host.now.run host).2).1 = _
  by_cases h : (Host.now.run host).1 < grid.next
  · rw [if_pos h]
    exact ⟨_, rfl⟩
  · rw [if_neg h]
    exact ⟨_, rfl⟩

/-- **No wait ends early.** -/
theorem next_le_reading_wait [LawfulTime τ] (grid : FrameGrid) (host : Host τ) :
    grid.next ≤ (grid.wait.run host).2.reading := by
  show grid.next ≤ (StateT.run (if host.reading < grid.next then _ else _ :
    StateM (Host τ) (UInt64 × FrameGrid)) (Host.now.run host).2).2.reading
  have hentered := host.reading_le_now
  by_cases h : host.reading < grid.next
  · rw [if_pos h]
    calc grid.next = host.reading + (grid.next - host.reading) :=
          (Nat.add_sub_cancel' (Nat.le_of_lt h)).symm
      _ ≤ (Host.now.run host).2.reading + (grid.next - host.reading) :=
          Nat.add_le_add_right hentered _
      _ ≤ ((Host.sleep (grid.next - host.reading)).run (Host.now.run host).2).2.reading :=
          Host.reading_le_sleep _ _
      _ ≤ _ := Host.reading_le_now _
  · rw [if_neg h]
    calc grid.next ≤ host.reading := Nat.le_of_not_lt h
      _ ≤ (Host.now.run host).2.reading := hentered
      _ ≤ _ := Host.reading_le_now _

end FrameGrid

/-! ## Sessions -/

namespace ClockSession

variable {τ : Type} [TimeSource τ]

theorem grid_woken (session : ClockSession τ) (grid : FrameGrid) (h : 0 < grid.interval) :
    ∃ k, 1 ≤ k ∧ (session.woken grid).clock.grid =
      some ⟨grid.next + k * grid.interval, grid.interval⟩ := by
  obtain ⟨now, hwait⟩ := grid.run_wait_eq session.host
  obtain ⟨k, hk, hadvance⟩ := grid.advance_eq now h
  refine ⟨k, hk, ?_⟩
  rw [clock_woken]
  show some (grid.wait.run session.host).1.2 = _
  rw [hwait, hadvance]

/-- Notes take no time. -/
theorem reading_woken (session : ClockSession τ) (grid : FrameGrid) :
    (session.woken grid).host.reading = (grid.wait.run session.host).2.reading := by
  unfold woken
  by_cases hmissed : (session.awaited grid).1.1 ≠ 0
  · rw [if_pos hmissed]
    rfl
  · rw [if_neg hmissed]
    rfl

variable [LawfulTime τ]

/-- A frame that is entered after a wait begins at the deadline or later. -/
theorem next_le_entered_woken (session : ClockSession τ) (grid : FrameGrid) :
    grid.next ≤ (session.woken grid).entered.1 := by
  show grid.next ≤ (session.woken grid).host.reading
  rw [reading_woken]
  exact grid.next_le_reading_wait session.host

/-- A frame that is entered at a start begins then or later. -/
theorem timed_le_entered_started (session : ClockSession τ) :
    session.timed.1 ≤ session.started.entered.1 :=
  session.host.reading_le_now

end ClockSession

end Mos6502

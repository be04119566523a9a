import Mathlib.Data.Set.Card
import Mathlib.Order.Interval.Finset.Nat
import Mos6502.Proofs.Clock.Deadline

/-!
# Overdue deadlines

A wait that ends late skips the deadlines that have passed by then. How many there are is a quotient
(`overdue`), also if there are none. The wait counts them with 64 bits, and moves the deadline on by
the low 32 bits of that count.

**Which deadline is next** (`isLeast_overdue`). The one after those that have passed; a deadline
that is met exactly has passed.

Main result: `wait_skips_overdue`. The wait moves on to the first deadline to come, unless 2^32 or
more have passed: then the deadline that it moves on to has passed as well.
-/

namespace Mos6502

namespace FrameGrid

/-! ## Deadlines that have passed -/

/-- How many deadlines behind the next one have passed at `now`. -/
def overdue (grid : FrameGrid) (now : Instant) : Nat :=
  (now - grid.next) / grid.interval

variable {grid : FrameGrid}

theorem le_overdue_iff (h : 0 < grid.interval) (now : Instant) {j : Nat} (hj : 1 ≤ j) :
    j ≤ grid.overdue now ↔ grid.next + j * grid.interval ≤ now := by
  have hsub (a d n : Nat) (ha : 0 < a) : a ≤ n - d ↔ d + a ≤ n := by omega
  unfold overdue
  rw [Nat.le_div_iff_mul_le h]
  exact hsub _ _ _ (Nat.mul_pos hj h)

/-- **The first deadline to come** is the one after those that have passed. -/
theorem isLeast_overdue (h : 0 < grid.interval) (now : Instant) :
    IsLeast {m | 1 ≤ m ∧ now < grid.next + m * grid.interval} (grid.overdue now + 1) := by
  refine ⟨⟨Nat.le_add_left 1 _, ?_⟩, fun m hm => ?_⟩
  · rw [← Nat.not_le, ← le_overdue_iff h now (Nat.le_add_left 1 _)]
    exact Nat.not_succ_le_self _
  · obtain ⟨hone, hlt⟩ := hm
    rw [← Nat.not_le, ← le_overdue_iff h now hone, Nat.not_le] at hlt
    exact hlt

theorem ncard_overdue (h : 0 < grid.interval) (now : Instant) :
    {j | 1 ≤ j ∧ grid.next + j * grid.interval ≤ now}.ncard = grid.overdue now := by
  have hset : {j | 1 ≤ j ∧ grid.next + j * grid.interval ≤ now} =
      Set.Icc 1 (grid.overdue now) := by
    ext j
    exact and_congr_right fun hj => (le_overdue_iff h now hj).symm
  rw [hset, ← Finset.coe_Icc, Set.ncard_coe_finset, Nat.card_Icc, Nat.add_sub_cancel]

/-! ## Moving on -/

/-- **The count and the deadline**, however late it is. -/
theorem advance_eq_overdue (h : 0 < grid.interval) (now : Instant) :
    grid.advance now = ((grid.overdue now).toUInt64,
      ⟨grid.next + (grid.overdue now % 2 ^ 32 + 1) * grid.interval, grid.interval⟩) := by
  unfold advance
  by_cases hnow : now < grid.next + grid.interval
  · have hnone : ¬1 ≤ grid.overdue now := by
      rw [le_overdue_iff h now (Nat.le_refl 1), Nat.one_mul]
      exact Nat.not_le.mpr hnow
    rw [if_pos hnow, Nat.lt_one_iff.mp (Nat.not_le.mp hnone), Nat.zero_mod, Nat.zero_add,
      Nat.one_mul]
    rfl
  · have hsucc : grid.overdue now =
        (now - (grid.next + grid.interval)) / grid.interval + 1 := by
      rw [overdue, ← Nat.sub_sub, Nat.div_eq_sub_div h (Nat.le_sub_of_add_le' (Nat.not_lt.mp hnow))]
    rw [if_neg hnow, if_neg (Nat.ne_of_gt h), hsucc]
    generalize (now - (grid.next + grid.interval)) / grid.interval = q
    have hcount : q.toUInt64 + 1 = (q + 1).toUInt64 := (UInt64.ofNat_add q 1).symm
    have hlow : (q + 1).toUInt64.toUInt32.toNat = (q + 1) % 2 ^ 32 := by
      rw [UInt64.toNat_toUInt32]
      show (q + 1) % 2 ^ 64 % 2 ^ 32 = _
      rw [Nat.mod_mod_of_dvd _ (by decide)]
    dsimp only
    rw [hcount, hlow, Nat.add_mul, Nat.one_mul, Nat.mul_comm grid.interval, Nat.add_assoc,
      Nat.add_comm grid.interval]

variable {τ : Type} [TimeSource τ]

/-- The host once the sleep of a wait is over, if there is one. -/
def awake (grid : FrameGrid) (host : Host τ) : Host τ :=
  let (entered, host) := Host.now.run host
  if entered < grid.next then ((Host.sleep (grid.next - entered)).run host).2 else host

theorem run_wait (grid : FrameGrid) (host : Host τ) :
    grid.wait.run host =
      (grid.advance (grid.awake host).reading, (Host.now.run (grid.awake host)).2) := by
  show StateT.run (if (Host.now.run host).1 < grid.next then _ else _ :
    StateM (Host τ) (UInt64 × FrameGrid)) (Host.now.run host).2 = _
  have hawake : grid.awake host = if (Host.now.run host).1 < grid.next then
      ((Host.sleep (grid.next - (Host.now.run host).1)).run (Host.now.run host).2).2
    else (Host.now.run host).2 := rfl
  rw [hawake]
  split <;> rfl

/-- **A wait skips the deadlines that have passed**, if they are fewer than 2^32.

Let the wait end at `now`. The deadlines behind the one it waited for that have passed are one fewer
than the first to come is intervals away. Their number is what the wait returns, in 64 bits. The
deadline moves on by one interval more than the low 32 bits of their number say. That is the first
to come if they are fewer than 2^32, and one that has passed otherwise. -/
theorem wait_skips_overdue (h : 0 < grid.interval) (host : Host τ) :
    ∃ (now : Instant) (m : Nat), now = (grid.awake host).reading ∧
      IsLeast {m | 1 ≤ m ∧ now < grid.next + m * grid.interval} m ∧
      {j | 1 ≤ j ∧ grid.next + j * grid.interval ≤ now}.ncard = m - 1 ∧
      (grid.wait.run host).1 = ((m - 1).toUInt64,
        ⟨grid.next + ((m - 1) % 2 ^ 32 + 1) * grid.interval, grid.interval⟩) ∧
      (m - 1 < 2 ^ 32 → (grid.wait.run host).1.1.toNat = m - 1 ∧
        (grid.wait.run host).1.2 = ⟨grid.next + m * grid.interval, grid.interval⟩) ∧
      (2 ^ 32 ≤ m - 1 → (grid.wait.run host).1.2.next ≤ now) := by
  generalize hnow : (grid.awake host).reading = now
  have hwait : (grid.wait.run host).1 = grid.advance now := by rw [run_wait, hnow]
  rw [advance_eq_overdue h] at hwait
  have hpassed := ncard_overdue h now
  have hlater (hlate : 2 ^ 32 ≤ grid.overdue now) :
      grid.next + (grid.overdue now % 2 ^ 32 + 1) * grid.interval ≤ now := by
    have hlow : grid.overdue now % 2 ^ 32 < 2 ^ 32 := Nat.mod_lt _ (by decide)
    exact (le_overdue_iff h now (Nat.le_add_left 1 _)).mp (by omega)
  refine ⟨now, grid.overdue now + 1, rfl, isLeast_overdue h now, hpassed, hwait, ?_, ?_⟩
  · intro hfew
    rw [Nat.add_sub_cancel] at hfew
    rw [hwait, Nat.mod_eq_of_lt hfew]
    refine ⟨?_, rfl⟩
    show grid.overdue now % 2 ^ 64 = _
    rw [Nat.mod_eq_of_lt (Nat.lt_trans hfew (by decide)), Nat.add_sub_cancel]
  · intro hmany
    rw [hwait]
    exact hlater hmany

/-! ## Late and far too late -/

/-- The wait ends at the very moment of a deadline, and goes on to the one after it. -/
theorem wait_skips_overdue_met :
    0 < (⟨10, 5⟩ : FrameGrid).interval ∧ ∃ m, m = 4 ∧
      IsLeast {m | 1 ≤ m ∧ 25 < 10 + m * 5} m ∧
      ((⟨10, 5⟩ : FrameGrid).wait.run (⟨⟨24⟩, {}⟩ : Host SimulatedTime)).1 =
        (3, ⟨10 + m * 5, 5⟩) := by
  have hinterval : 0 < (⟨10, 5⟩ : FrameGrid).interval := by decide
  obtain ⟨now, m, hnow, hleast, -, hwait, -, -⟩ :=
    wait_skips_overdue hinterval (⟨⟨24⟩, {}⟩ : Host SimulatedTime)
  obtain rfl : now = 25 := hnow
  obtain rfl : m = 4 := hleast.unique (isLeast_overdue hinterval 25)
  exact ⟨hinterval, 4, rfl, hleast, hwait⟩

/-- A deadline each millisecond, the first of them a millisecond from the origin of time. -/
def milliseconds : FrameGrid :=
  .arm 0 (.ofMilliseconds 1)

/-- A host that wakes up after 2^32 + 1000 milliseconds, which are some fifty days. -/
def sleeper : Host SimulatedTime :=
  ⟨⟨4294968296000003⟩, {}⟩

/-- A clock with these deadlines that is started, left alone for so long, and ticks twice. -/
def leftAlone : ClockM SimulatedTime ClockRecord := do
  let _ ← Clock.start (fun () => return ()) ()
  ClockM.onHost (Host.sleep (.ofMilliseconds 4294968296))
  let _ ← Clock.tick (fun () => return ()) ()
  let _ ← Clock.tick (fun () => return ()) ()
  Clock.readRecord

/-- Far too late, a wait goes on to a deadline that has passed. The clock's next tick finds itself
late again, and counts most of the deadlines a second time. -/
theorem overdue_wait_falls_short :
    IsLeast {m | 1 ≤ m ∧ (milliseconds.awake sleeper).reading <
      milliseconds.next + m * milliseconds.interval} 4294968296 ∧
    (milliseconds.wait.run sleeper).1.2.next ≠
      milliseconds.next + 4294968296 * milliseconds.interval ∧
    (milliseconds.wait.run sleeper).1.2.next ≤ (milliseconds.awake sleeper).reading ∧
    ∃ (record : ClockRecord) (session : ClockSession SimulatedTime),
      leftAlone ⟨{ pace := ⟨1000, 1000, by decide, by decide⟩ }, ⟨{}, {}⟩⟩ =
        some (record, session) ∧ record.missed = 4294968295 + 4294967295 :=
  ⟨isLeast_overdue (by decide) _, by decide, by decide, _, _, rfl, rfl⟩

end FrameGrid

end Mos6502

import Mathlib.Algebra.Field.Rat
import Mathlib.Data.Nat.Cast.Order.Ring
import Mathlib.Tactic.NormNum
import Mathlib.Tactic.Positivity
import Mos6502.Proofs.Clock.CurrentRun
import Mos6502.Proofs.Clock.Replies

/-!
# The measured frequency

A running clock that is looked at takes its frequency anew. It divides the calls of all frames that
it ever finished by the time since it was last started.

Frequencies are compared as exact numbers (`Frequency.exact`), before they are rounded to floats.
The calls are those of the ledger, which counts them one by one as they are made (`settledCalls`).

Main result: `frequency_over_all_runs`. The frequency is that of the current run if and only if no
frame was finished before the run began; otherwise the calls made before are added to it.
-/

namespace Mos6502

/-- So many calls in a span of time, per second. -/
def perSecond (calls : ℚ) (span : Duration) : ℚ :=
  calls / (span / 10 ^ 9)

theorem perSecond_inj {span : Duration} (h : 0 < span) {calls calls' : ℚ} :
    perSecond calls span = perSecond calls' span ↔ calls = calls' := by
  have hspan : (0 : ℚ) < span := Nat.cast_pos.mpr h
  exact div_left_inj' (by positivity)

/-- A frequency in hertz, not rounded. -/
def Frequency.exact : Frequency → ℚ
  | nominal hertz => hertz.toNat
  | measured calls elapsed => perSecond calls elapsed

namespace Moment

variable {τ π ρ : Type}

/-- The handler calls of the frames that came to their end. -/
def settledCalls (m : Moment τ π) : Nat :=
  m.ledger.calls - callsInProgress m.stack

variable [TimeSource τ]

/-- **The frequency is an average over all runs.** Whatever a new clock is told to do, if it is
running when it is looked at, there was a last start, right after a moment `m`. If time has passed
since, the clock reports the calls of all finished frames, those before `m` included, over that
time. This is the frequency of the calls since the start only if there were none before. -/
theorem frequency_over_all_runs (act : π → StateM (Host τ) ρ) (pace : Pace) (host : Host τ)
    (script : List (ClockCall π)) {n : Nat} {m' : Moment τ π}
    (hm' : m' = (outset pace host script).after act n)
    (hrunning : m'.session.clock.running = true) :
    (∃ k j, n = k + (j + 1) ∧ ((outset pace host script).after act k).RunsFor act j) ∧
    ∀ (k j : Nat) (m : Moment τ π), n = k + (j + 1) → m = (outset pace host script).after act k →
      m.RunsFor act j → m.session.timed.1 < m'.session.timed.1 →
      ∃ (record : ClockRecord) (session' : ClockSession τ),
        Clock.readRecord m'.session = some (record, session') ∧
        record.begun = some m.session.timed.1 ∧
        record.frequency.exact =
          perSecond m'.settledCalls (m'.session.timed.1 - m.session.timed.1) ∧
        (record.frequency.exact = perSecond (m'.settledCalls - m.settledCalls)
            (m'.session.timed.1 - m.session.timed.1) ↔ m.settledCalls = 0) := by
  have haccounted : m'.Accounted pace := by
    rw [hm']
    exact (consistent_after act host script n).accounted
  refine ⟨exists_runsFor (by rfl) (hm' ▸ hrunning), ?_⟩
  intro k j m hn hm hruns hnow
  have hbegun : m'.session.clock.record.begun = some m.session.timed.1 := by
    rw [hm', hn, after_add, ← hm]
    exact hruns.begun
  have hfrequency : m'.session.measured.clock.record.frequency.exact =
      perSecond m'.settledCalls (m'.session.timed.1 - m.session.timed.1) :=
    congrArg Frequency.exact (haccounted.measured _ _ hbegun hnow)
  refine ⟨_, _, Clock.readRecord_of_running hrunning, hbegun, hfrequency, ?_⟩
  rw [hfrequency, perSecond_inj (Nat.sub_pos_of_lt hnow), eq_comm, sub_eq_self, Nat.cast_eq_zero]

/-! ## A second run -/

/-- A clock that finishes a frame of two calls and is stopped, and is started again and left alone
for a second. -/
def runningTwice : Moment SimulatedTime Duration :=
  outset ⟨6, 3, by decide, by decide⟩ ⟨{}, {}⟩ [.start [], .stop, .start [], .probe 1000000000]

theorem frequency_over_all_runs_twice :
    (runningTwice.after Host.sleep 14).session.clock.running = true ∧
      (runningTwice.after Host.sleep 7).RunsFor Host.sleep 6 ∧
      (runningTwice.after Host.sleep 7).session.timed.1 <
        (runningTwice.after Host.sleep 14).session.timed.1 ∧
      ∃ (record : ClockRecord) (session' : ClockSession SimulatedTime),
        Clock.readRecord (runningTwice.after Host.sleep 14).session = some (record, session') ∧
        record.frequency.exact = perSecond (4 : Nat) 1000000003 := by
  have hruns : (runningTwice.after Host.sleep 7).RunsFor Host.sleep 6 := ⟨rfl, by decide⟩
  have hnow : (runningTwice.after Host.sleep 7).session.timed.1 <
      (runningTwice.after Host.sleep 14).session.timed.1 := by decide
  have hmain := frequency_over_all_runs Host.sleep ⟨6, 3, by decide, by decide⟩
    (⟨{}, {}⟩ : Host SimulatedTime) [.start [], .stop, .start [], .probe 1000000000]
    (n := 14) rfl rfl
  obtain ⟨record, session', hread, -, hexact, -⟩ := hmain.2 7 6 _ rfl rfl hruns hnow
  exact ⟨rfl, hruns, hnow, record, session', hread, hexact⟩

/-- The second run makes two calls in a second, and the clock reports twice as many. -/
theorem frequency_twice_ne :
    (runningTwice.after Host.sleep 7).RunsFor Host.sleep 6 ∧
      (runningTwice.after Host.sleep 7).settledCalls = 2 ∧
      (runningTwice.after Host.sleep 14).settledCalls = 4 ∧
      ∃ (record : ClockRecord) (session' : ClockSession SimulatedTime),
        Clock.readRecord (runningTwice.after Host.sleep 14).session = some (record, session') ∧
        record.begun = some 3 ∧
        (runningTwice.after Host.sleep 14).session.timed.1 = 1000000006 ∧
        record.frequency.exact ≠ perSecond ((runningTwice.after Host.sleep 14).settledCalls -
          (runningTwice.after Host.sleep 7).settledCalls) (1000000006 - 3) := by
  have hcalls : (runningTwice.after Host.sleep 7).settledCalls = 2 := rfl
  have hcalls' : (runningTwice.after Host.sleep 14).settledCalls = 4 := rfl
  refine ⟨⟨rfl, by decide⟩, hcalls, hcalls', _, _, rfl, rfl, rfl, ?_⟩
  show perSecond (4 : Nat) 1000000003 ≠ _
  rw [hcalls, hcalls', Ne, perSecond_inj (by decide)]
  norm_num

end Moment

end Mos6502

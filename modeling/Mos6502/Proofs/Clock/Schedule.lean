import Mos6502.Proofs.Clock.CurrentRun
import Mos6502.Proofs.Clock.Deadline

/-!
# Frames and their grid

A run of a clock never gets ahead of its grid, however late its ticks are, however long its frames
and its sleeps take, and whoever asks for the ticks.

**Counting** (`ticks`, `pacedFrames`). A tick is a step that waits for a deadline; the frame it asks
for is refused if the tick is nested in another frame. The frames of a run are those that its start
and its ticks entered, each with the time at its beginning.

**The invariant** (`RunsFor.grid`). The deadline is a whole number of intervals away from the start,
and this number is greater than that of the ticks so far: each tick moves it on by one at least.

Main result: `frames_on_grid`.
-/

namespace Mos6502

namespace Moment

variable {τ π ρ : Type} [TimeSource τ]

/-! ## Counting -/

/-- How many of the first `n` steps wait for a deadline. -/
def ticks (act : π → StateM (Host τ) ρ) (m : Moment τ π) : (n : Nat) → Nat
  | 0 => 0
  | n + 1 => m.ticks act n + if (m.after act n).due.isSome then 1 else 0

/-- When the frame on top of a stack began. -/
def topBegan : List (Activation π) → Option Instant
  | .frame began _ _ _ _ :: _ => some began
  | _ => none

/-- When the frame began that the next step enters for a start or a tick. A frame is entered only
while there is no other. -/
def pacedFrame (act : π → StateM (Host τ) ρ) (m : Moment τ π) : Option Instant :=
  if (m.starts || m.due.isSome) && !m.session.clock.inFrame then topBegan (m.next act).stack
  else none

/-- When the frames began that the first `n` steps entered for starts and ticks, in order. -/
def pacedFrames (act : π → StateM (Host τ) ρ) (m : Moment τ π) : (n : Nat) → List Instant
  | 0 => []
  | n + 1 => m.pacedFrames act n ++ ((m.after act n).pacedFrame act).toList

theorem topBegan_request {m : Moment τ π} (h : m.session.clock.inFrame = false)
    (agenda : List (Nat × ClockCall π)) (before : Nat) :
    topBegan (m.request agenda before).stack = some m.session.entered.1 := by
  unfold request
  rw [h]
  rfl

variable {act : π → StateM (Host τ) ρ} {m : Moment τ π} {n : Nat}

theorem of_pacedFrame_eq_some {began : Instant} (h : m.pacedFrame act = some began) :
    (m.starts = true ∨ m.due.isSome = true) ∧ m.session.clock.inFrame = false ∧
      topBegan (m.next act).stack = some began := by
  unfold pacedFrame at h
  split at h
  · rename_i hpaced
    rw [Bool.and_eq_true, Bool.or_eq_true, Bool.not_eq_true'] at hpaced
    exact ⟨hpaced.1, hpaced.2, h⟩
  · cases h

/-! ## The grid -/

/-- The grid of a clock that is started now, with its `q`-th deadline next. -/
def deadline (m : Moment τ π) (q : Nat) : FrameGrid where
  next := m.session.timed.1 + q * m.session.clock.pace.interval
  interval := m.session.clock.pace.interval

theorem woken_deadline (m : Moment τ π) (session : ClockSession τ) (q : Nat)
    (hinterval : 0 < m.session.clock.pace.interval) :
    ∃ q', q < q' ∧ (session.woken (m.deadline q)).clock.grid = some (m.deadline q') := by
  obtain ⟨k, hk, hwoken⟩ := session.grid_woken (m.deadline q) hinterval
  refine ⟨q + k, Nat.lt_add_of_pos_right hk, ?_⟩
  rw [hwoken]
  unfold deadline
  rw [Nat.add_mul, Nat.add_assoc]

theorem deadline_add_le (m : Moment τ π) {q q' : Nat} (h : q < q') :
    (m.deadline q).next + m.session.clock.pace.interval ≤ (m.deadline q').next := by
  show m.session.timed.1 + q * _ + _ ≤ m.session.timed.1 + q' * _
  rw [Nat.add_assoc, ← Nat.succ_mul]
  exact Nat.add_le_add_left (Nat.mul_le_mul_right _ h) _

namespace RunsFor

theorem ticks_one (h : m.RunsFor act n) : m.ticks act 1 = 0 := by
  show 0 + (if m.due.isSome = true then 1 else 0) = 0
  rw [due_of_stopped h.stopped]
  rfl

/-- A step leaves the deadline alone, or it is a tick: then it waits for this deadline, moves on to
a later one, and asks for a frame. -/
theorem step (h : m.RunsFor act (n + 1)) (hinterval : 0 < m.session.clock.pace.interval) {q : Nat}
    (hgrid : (m.after act (n + 1)).session.clock.grid = some (m.deadline q)) :
    ((m.after act (n + 1)).due = none ∧
      (m.after act (n + 2)).session.clock.grid = some (m.deadline q)) ∨
    ((m.after act (n + 1)).due = some (m.deadline q) ∧
      (∃ q', q < q' ∧ (m.after act (n + 2)).session.clock.grid = some (m.deadline q')) ∧
      ∃ (stack : List (Activation π)) (agenda : List (Nat × ClockCall π)) (before : Nat),
        (m.after act (n + 1)).next act =
          ({ m.after act (n + 1) with stack }.wake (m.deadline q)).request agenda before) := by
  rcases h.later with ⟨-, ⟨hdue, hsame⟩ | ⟨grid, stack, agenda, before, hdue, hnext⟩⟩
  · exact .inl ⟨hdue, hsame.grid.trans hgrid⟩
  · obtain rfl := Option.some.inj ((of_due_eq_some hdue).2.symm.trans hgrid)
    obtain ⟨q', hq', hwoken⟩ := m.woken_deadline (m.after act (n + 1)).session q hinterval
    refine .inr ⟨hdue, ⟨q', hq', ?_⟩, stack, agenda, before, hnext⟩
    rw [hnext, (sameRun_request _ agenda before).grid]
    exact hwoken

/-- **The deadline is on the grid**, beyond the ticks so far. -/
theorem grid (h : m.RunsFor act n) (hinterval : 0 < m.session.clock.pace.interval) :
    ∃ q, m.ticks act (n + 1) < q ∧
      (m.after act (n + 1)).session.clock.grid = some (m.deadline q) := by
  induction n with
  | zero =>
    obtain ⟨-, stack, agenda, hfirst⟩ := h.first
    refine ⟨1, by rw [h.ticks_one]; exact Nat.one_pos, ?_⟩
    rw [hfirst, (sameRun_request _ agenda 0).grid, deadline, Nat.one_mul]
    rfl
  | succ n ih =>
    obtain ⟨q, hq, hgrid⟩ := ih (h.mono (Nat.le_succ n))
    rcases h.step hinterval hgrid with ⟨hdue, hgrid'⟩ | ⟨hdue, ⟨q', hq', hgrid'⟩, -⟩
    · rw [ticks, hdue]
      exact ⟨q, hq, hgrid'⟩
    · rw [ticks, hdue]
      exact ⟨q', Nat.lt_of_le_of_lt hq hq', hgrid'⟩

/-- A tick waits for a deadline beyond the ticks before it. -/
theorem tick (h : m.RunsFor act (n + 1)) (hinterval : 0 < m.session.clock.pace.interval)
    (hdue : (m.after act (n + 1)).due.isSome = true) :
    m.ticks act (n + 2) = m.ticks act (n + 1) + 1 ∧
    ∃ q, m.ticks act (n + 1) < q ∧ (m.after act (n + 1)).due = some (m.deadline q) ∧
      (∃ q', q < q' ∧ (m.after act (n + 2)).session.clock.grid = some (m.deadline q')) ∧
      ∃ (stack : List (Activation π)) (agenda : List (Nat × ClockCall π)) (before : Nat),
        (m.after act (n + 1)).next act =
          ({ m.after act (n + 1) with stack }.wake (m.deadline q)).request agenda before := by
  obtain ⟨q, hq, hgrid⟩ := (h.mono (Nat.le_succ n)).grid hinterval
  rcases h.step hinterval hgrid with ⟨hnone, -⟩ | htick
  · rw [hnone] at hdue
    cases hdue
  · refine ⟨?_, q, hq, htick⟩
    rw [ticks, if_pos hdue]

/-- **Each tick moves the deadline on** by an interval at least. -/
theorem next_add_le (h : m.RunsFor act (n + 1)) (hinterval : 0 < m.session.clock.pace.interval)
    {grid grid' : FrameGrid} (hdue : (m.after act (n + 1)).due = some grid)
    (hgrid' : (m.after act (n + 2)).session.clock.grid = some grid') :
    grid.next + m.session.clock.pace.interval ≤ grid'.next := by
  obtain ⟨-, q, -, hq, ⟨q', hlt, hq'⟩, -⟩ := h.tick hinterval (by rw [hdue]; rfl)
  obtain rfl := Option.some.inj (hdue.symm.trans hq)
  obtain rfl := Option.some.inj (hgrid'.symm.trans hq')
  exact m.deadline_add_le hlt

/-! ## Frames -/

variable [LawfulTime τ] {began : Instant}

/-- The frame of the start begins then, or later. -/
theorem timed_le_began (h : m.RunsFor act n) (hframe : m.pacedFrame act = some began) :
    m.session.timed.1 ≤ began := by
  obtain ⟨-, hidle, hbegan⟩ := of_pacedFrame_eq_some hframe
  obtain ⟨-, stack, agenda, hfirst⟩ := h.first
  replace hfirst : m.next act = _ := hfirst
  have hidle' : m.session.started.clock.inFrame = false := hidle
  rw [hfirst, topBegan_request (by exact hidle')] at hbegan
  cases hbegan
  exact m.session.timed_le_entered_started

/-- **No frame of a tick is early.** That of the `i`-th tick begins `i` intervals after the start,
or later. -/
theorem deadline_le_began (h : m.RunsFor act (n + 1))
    (hinterval : 0 < m.session.clock.pace.interval)
    (hframe : (m.after act (n + 1)).pacedFrame act = some began) :
    m.ticks act (n + 2) = m.ticks act (n + 1) + 1 ∧
      (m.deadline (m.ticks act (n + 2))).next ≤ began := by
  obtain ⟨hpaced, hidle, hbegan⟩ := of_pacedFrame_eq_some hframe
  have hdue := hpaced.resolve_left (by simp [h.later.1])
  obtain ⟨hticks, q, hq, -, -, stack, agenda, before, hnext⟩ := h.tick hinterval hdue
  have hwoken := (m.after act (n + 1)).session.clock_woken (m.deadline q)
  have hidle' := (congrArg Clock.inFrame hwoken).trans hidle
  rw [hnext, topBegan_request (by exact hidle')] at hbegan
  cases hbegan
  refine ⟨hticks, Nat.le_trans ?_ (ClockSession.next_le_entered_woken _ _)⟩
  rw [hticks]
  exact Nat.add_le_add_left (Nat.mul_le_mul_right _ hq) _

/-- **No bursts.** Up to any time there was a frame for the start and one for each interval that had
passed since, at most. -/
theorem countP_pacedFrames_le (h : m.RunsFor act n)
    (hinterval : 0 < m.session.clock.pace.interval) (t : Instant) :
    (m.pacedFrames act (n + 1)).countP (· ≤ t) ≤ 1 + m.ticks act (n + 1) ∧
      (m.pacedFrames act (n + 1)).countP (· ≤ t) ≤
        1 + (t - m.session.timed.1) / m.session.clock.pace.interval := by
  induction n with
  | zero =>
    have hone : (m.pacedFrames act 1).countP (· ≤ t) ≤ 1 := by
      refine Nat.le_trans List.countP_le_length ?_
      show ([] ++ (m.pacedFrame act).toList).length ≤ 1
      cases m.pacedFrame act <;> simp
    exact ⟨Nat.le_trans hone (Nat.le_add_right 1 _), Nat.le_trans hone (Nat.le_add_right 1 _)⟩
  | succ n ih =>
    obtain ⟨hticks, htime⟩ := ih (h.mono (Nat.le_succ n))
    rw [pacedFrames, List.countP_append]
    cases hframe : (m.after act (n + 1)).pacedFrame act with
    | none => exact ⟨Nat.le_trans hticks (Nat.add_le_add_left (Nat.le_add_right _ _) 1), htime⟩
    | some began =>
      obtain ⟨hsucc, hbegan⟩ := h.deadline_le_began hinterval hframe
      replace hsucc : m.ticks act (n + 1 + 1) = _ := hsucc
      rw [Option.toList_some, List.countP_singleton]
      by_cases hle : began ≤ t
      · -- The frame of this tick begins late enough to be paid for by the ticks.
        have hpassed : m.ticks act (n + 1 + 1) ≤
            (t - m.session.timed.1) / m.session.clock.pace.interval := by
          rw [Nat.le_div_iff_mul_le hinterval]
          exact Nat.le_sub_of_add_le' (Nat.le_trans hbegan hle)
        rw [if_pos (decide_eq_true hle)]
        omega
      · rw [if_neg (by simpa using hle)]
        omega

end RunsFor

/-! ## Runs on their grid -/

/-- What holds of a run after `n + 1` steps, the first of which is its start. -/
structure OnGrid (act : π → StateM (Host τ) ρ) (m : Moment τ π) (n : Nat) : Prop where
  /-- The clock was started at the time noted. -/
  begun : (m.after act (n + 1)).session.clock.record.begun = some m.session.timed.1
  /-- The deadline is a whole number of intervals after the start, and beyond the ticks so far. -/
  grid : ∃ q, 1 ≤ q ∧ m.ticks act (n + 1) < q ∧ (m.after act (n + 1)).session.clock.grid =
    some ⟨m.session.timed.1 + q * m.session.clock.pace.interval, m.session.clock.pace.interval⟩
  /-- Each tick moves the deadline on by an interval at least. -/
  moves (k : Nat) (hk : k < n) (grid grid' : FrameGrid)
    (hdue : (m.after act (k + 1)).due = some grid)
    (hgrid' : (m.after act (k + 2)).session.clock.grid = some grid') :
    grid.next + m.session.clock.pace.interval ≤ grid'.next
  /-- The frame of the start begins then or later, and the frame of the `i`-th tick begins `i`
  intervals after the start or later. -/
  frame (k : Nat) (hk : k ≤ n) (began : Instant)
    (hframe : (m.after act k).pacedFrame act = some began) :
    m.session.timed.1 + m.ticks act (k + 1) * m.session.clock.pace.interval ≤ began
  /-- The frames of the start and the ticks are at most one more than the whole intervals that have
  passed since the start, at any time. -/
  count (t : Instant) : (m.pacedFrames act (n + 1)).countP (· ≤ t) ≤
    1 + (t - m.session.timed.1) / m.session.clock.pace.interval

/-- **A clock never runs ahead of its grid.** -/
theorem frames_on_grid [LawfulTime τ] (act : π → StateM (Host τ) ρ) {m : Moment τ π} {n : Nat}
    (h : m.RunsFor act n) (hinterval : 0 < m.session.clock.pace.interval) : m.OnGrid act n where
  begun := h.begun
  grid := by
    obtain ⟨q, hq, hgrid⟩ := h.grid hinterval
    exact ⟨q, Nat.one_le_of_lt hq, hq, hgrid⟩
  moves k hk _ _ hdue hgrid' := (h.mono hk).next_add_le hinterval hdue hgrid'
  frame k hk began hframe := by
    cases k with
    | zero =>
      rw [h.ticks_one, Nat.zero_mul]
      exact h.timed_le_began hframe
    | succ k => exact ((h.mono hk).deadline_le_began hinterval hframe).2
  count t := (h.countP_pacedFrames_le hinterval t).2

/-! ## A tick in vain and a late one -/

/-- A clock with an interval of a millisecond. Its first tick comes from inside its first frame and
is refused; its second one comes after a long sleep. -/
def oversleeping : Moment SimulatedTime Duration :=
  outset ⟨1500, 1000, by decide, by decide⟩ ⟨⟨7⟩, {}⟩
    [.start [(1, .tick [])], .probe 3500000, .tick []]

theorem frames_on_grid_oversleeping :
    oversleeping.RunsFor Host.sleep 8 ∧ 0 < oversleeping.session.clock.pace.interval ∧
      oversleeping.OnGrid Host.sleep 8 ∧ oversleeping.ticks Host.sleep 9 = 2 ∧
      (oversleeping.after Host.sleep 9).session.clock.grid = some ⟨7 + 5 * 1000000, 1000000⟩ ∧
      oversleeping.pacedFrames Host.sleep 9 = [8, 4500012] := by
  have hruns : oversleeping.RunsFor Host.sleep 8 := ⟨rfl, by decide⟩
  have hinterval : 0 < oversleeping.session.clock.pace.interval := by decide
  exact ⟨hruns, hinterval, frames_on_grid Host.sleep hruns hinterval, rfl, rfl, rfl⟩

end Moment

end Mos6502

import Mos6502.Proofs.Clock.Replies

/-!
# The current run of a clock

From a start to the next stop a clock is in one run. In terms of the call stack, a step of a script
does one of four things to it (`Turn`): it leaves the run alone, starts one, waits for a deadline of
it, or stops it. Starts and waits are read off the stack before the step (`starts`, `due`).

**A run** (`RunsFor`). At a stopped clock, if the clock is running after each of the next `n + 1`
steps, the first of them is a start and the others are no starts and no stops.

Main results: a running clock is in such a run (`exists_runsFor`), and the time noted at the start
stays with it (`RunsFor.begun`).
-/

namespace Mos6502

/-- The clocks have one pace and are in the same run, if any, with the same deadline. -/
structure Clock.SameRun (clock clock' : Clock) : Prop where
  pace : clock'.pace = clock.pace
  running : clock'.running = clock.running
  grid : clock'.grid = clock.grid
  begun : clock'.record.begun = clock.record.begun

theorem Clock.SameRun.refl (clock : Clock) : clock.SameRun clock :=
  ⟨rfl, rfl, rfl, rfl⟩

namespace Moment

variable {τ π ρ : Type}

/-! ## What comes next -/

/-- Whether the next step starts the clock. -/
def starts (m : Moment τ π) : Bool :=
  match m.stack with
  | .calls _ (.start _ :: _) :: _ | .calls _ (.run _ :: _) :: _ => !m.session.clock.running
  | _ => false

/-- The grid on which the next step waits: that of a running clock, if a tick comes next. A tick is
called by somebody, or by a run between two of its frames. -/
def due (m : Moment τ π) : Option FrameGrid :=
  match m.stack with
  | .calls _ (.tick _ :: _) :: _ | .loop _ _ :: _ => m.session.clock.awaitedGrid
  | _ => none

theorem starts_of_running {m : Moment τ π} (h : m.session.clock.running = true) :
    m.starts = false := by
  unfold starts
  split <;> simp [h]

theorem due_of_stopped {m : Moment τ π} (h : m.session.clock.running = false) : m.due = none := by
  unfold due Clock.awaitedGrid
  split <;> simp [h]

theorem of_due_eq_some {m : Moment τ π} {grid : FrameGrid} (h : m.due = some grid) :
    m.session.clock.running = true ∧ m.session.clock.grid = some grid := by
  unfold due at h
  split at h
  · exact Clock.of_awaitedGrid_eq_some h
  · exact Clock.of_awaitedGrid_eq_some h
  · cases h

variable [TimeSource τ]

theorem sameRun_request (m : Moment τ π) (agenda : List (Nat × ClockCall π)) (before : Nat) :
    m.session.clock.SameRun (m.request agenda before).session.clock := by
  unfold request
  split
  · exact ⟨rfl, rfl, rfl, rfl⟩
  · exact ⟨rfl, rfl, rfl, rfl⟩

theorem make_start_of_running (act : π → StateM (Host τ) ρ) (agenda : List (Nat × ClockCall π))
    {m : Moment τ π} (h : m.session.clock.running = true) : m.make act (.start agenda) = m :=
  if_pos h

theorem make_run_of_running (act : π → StateM (Host τ) ρ) (agenda : List (Nat × ClockCall π))
    {m : Moment τ π} (h : m.session.clock.running = true) : m.make act (.run agenda) = m :=
  if_pos h

/-- What a step does to the run of the clock. -/
inductive Turn (m m' : Moment τ π) : Prop
  /-- Nothing. -/
  | keep (hstarts : m.starts = false) (hdue : m.due = none)
    (h : m.session.clock.SameRun m'.session.clock)
  /-- The clock is started, and a frame is asked for. -/
  | start (stack : List (Activation π)) (agenda : List (Nat × ClockCall π))
    (hstarts : m.starts = true)
    (h : m' = { m with stack, session := m.session.started }.request agenda 0)
  /-- The deadline is waited for, and a frame is asked for. -/
  | tick (stack : List (Activation π)) (agenda : List (Nat × ClockCall π)) (before : Nat)
    {grid : FrameGrid} (hdue : m.due = some grid)
    (h : m' = ({ m with stack }.wake grid).request agenda before)
  /-- The clock is stopped. -/
  | stop (hstopped : m'.session.clock.running = false)

theorem turn_make (act : π → StateM (Host τ) ρ) (caller : Caller) (call : ClockCall π)
    (rest : List (ClockCall π)) (below : List (Activation π)) (session : ClockSession τ)
    (ledger : Ledger) :
    Turn ⟨.calls caller (call :: rest) :: below, session, ledger⟩
      (make act ⟨.calls caller rest :: below, session, ledger⟩ call) := by
  cases call with
  | start agenda =>
    cases hrunning : session.clock.running with
    | true =>
      rw [make_start_of_running act agenda hrunning]
      exact .keep (starts_of_running hrunning) rfl (.refl _)
    | false =>
      have hstarts : (!session.clock.running) = true := by rw [hrunning]; rfl
      exact .start (.calls caller rest :: below) agenda hstarts (if_neg (by simp [hrunning]))
  | run agenda =>
    cases hrunning : session.clock.running with
    | true =>
      rw [make_run_of_running act agenda hrunning]
      exact .keep (starts_of_running hrunning) rfl (.refl _)
    | false =>
      have hstarts : (!session.clock.running) = true := by rw [hrunning]; rfl
      exact .start (.loop agenda 0 :: .calls caller rest :: below) agenda hstarts
        (if_neg (by simp [hrunning]))
  | tick agenda =>
    cases hgrid : session.clock.awaitedGrid with
    | none =>
      rw [make_tick_of_none act agenda hgrid]
      exact .keep rfl hgrid (.refl _)
    | some grid =>
      rw [make_tick_of_some act agenda hgrid]
      exact .tick (.calls caller rest :: below) agenda 0 hgrid rfl
  | frame agenda =>
    exact .keep rfl rfl (sameRun_request ⟨.calls caller rest :: below, session, ledger⟩ agenda 0)
  | stop =>
    cases hgrid : session.clock.awaitedGrid with
    | none =>
      rw [make_stop_of_none act hgrid]
      exact .keep rfl rfl (.refl _)
    | some grid =>
      rw [make_stop_of_some act hgrid]
      exact .stop rfl
  | record =>
    refine .keep rfl rfl ?_
    show session.clock.SameRun (if session.clock.running = true then _ else _ :
      Moment τ π).session.clock
    split
    · exact ⟨rfl, rfl, rfl, rfl⟩
    · exact ⟨rfl, rfl, rfl, rfl⟩
  | probe what => exact .keep rfl rfl ⟨rfl, rfl, rfl, rfl⟩

/-- **A step is a turn of the run.** -/
theorem turn (act : π → StateM (Host τ) ρ) (m : Moment τ π) : Turn m (m.next act) := by
  obtain ⟨stack, session, ledger⟩ := m
  match stack with
  | [] => exact .keep rfl rfl (.refl _)
  | .calls _ [] :: _ => exact .keep rfl rfl (.refl _)
  | .calls caller (call :: rest) :: below =>
    exact turn_make act caller call rest below session ledger
  | .frame _ _ _ _ (_ + 1) :: _ => exact .keep rfl rfl (.refl _)
  | .frame _ _ _ _ 0 :: _ => exact .keep rfl rfl ⟨rfl, rfl, rfl, rfl⟩
  | .loop agenda before :: below =>
    cases hgrid : session.clock.awaitedGrid with
    | none =>
      rw [next_loop_of_none act hgrid]
      exact .keep rfl hgrid (.refl _)
    | some grid =>
      rw [next_loop_of_some act hgrid]
      exact .tick (.loop agenda before :: below) agenda before hgrid rfl

/-! ## Runs -/

/-- The clock is stopped; the next step starts it, and it is running for `n` steps more. -/
structure RunsFor (act : π → StateM (Host τ) ρ) (m : Moment τ π) (n : Nat) : Prop where
  stopped : m.session.clock.running = false
  running : ∀ k ≤ n, (m.after act (k + 1)).session.clock.running = true

namespace RunsFor

variable {act : π → StateM (Host τ) ρ} {m : Moment τ π} {n : Nat}

theorem mono (h : m.RunsFor act n) {k : Nat} (hk : k ≤ n) : m.RunsFor act k :=
  ⟨h.stopped, fun j hj => h.running j (Nat.le_trans hj hk)⟩

/-- **The first step is a start.** -/
theorem first (h : m.RunsFor act n) :
    m.starts = true ∧ ∃ (stack : List (Activation π)) (agenda : List (Nat × ClockCall π)),
      m.after act 1 = { m with stack, session := m.session.started }.request agenda 0 := by
  have hrunning : (m.next act).session.clock.running = true := h.running 0 (Nat.zero_le n)
  cases m.turn act with
  | keep _ _ hsame => exact absurd (hsame.running.symm.trans hrunning) (by simp [h.stopped])
  | start stack agenda hstarts hnext => exact ⟨hstarts, stack, agenda, hnext⟩
  | tick _ _ _ hdue => exact absurd (of_due_eq_some hdue).1 (by simp [h.stopped])
  | stop hstopped => exact absurd hrunning (by simp [hstopped])

/-- **A later step keeps the run or waits for a deadline.** -/
theorem later (h : m.RunsFor act (n + 1)) :
    (m.after act (n + 1)).starts = false ∧
      (((m.after act (n + 1)).due = none ∧
        (m.after act (n + 1)).session.clock.SameRun (m.after act (n + 2)).session.clock) ∨
      ∃ (grid : FrameGrid) (stack : List (Activation π)) (agenda : List (Nat × ClockCall π))
        (before : Nat), (m.after act (n + 1)).due = some grid ∧
        m.after act (n + 2) =
          ({ m.after act (n + 1) with stack }.wake grid).request agenda before) := by
  have hbefore := h.running n (Nat.le_succ n)
  have hafter : ((m.after act (n + 1)).next act).session.clock.running = true :=
    h.running (n + 1) (Nat.le_refl _)
  refine ⟨starts_of_running hbefore, ?_⟩
  cases (m.after act (n + 1)).turn act with
  | keep _ hdue hsame => exact .inl ⟨hdue, hsame⟩
  | start _ _ hstarts => exact absurd hstarts (by simp [starts_of_running hbefore])
  | tick stack agenda before hdue hnext => exact .inr ⟨_, stack, agenda, before, hdue, hnext⟩
  | stop hstopped => exact absurd hafter (by simp [hstopped])

/-- **The run began when its clock was started.** -/
theorem begun (h : m.RunsFor act n) :
    (m.after act (n + 1)).session.clock.record.begun = some m.session.timed.1 := by
  induction n with
  | zero =>
    obtain ⟨-, stack, agenda, hfirst⟩ := h.first
    rw [hfirst]
    exact (sameRun_request _ agenda 0).begun
  | succ n ih =>
    rw [← ih (h.mono (Nat.le_succ n))]
    rcases h.later with ⟨-, ⟨-, hsame⟩ | ⟨grid, stack, agenda, before, -, hnext⟩⟩
    · exact hsame.begun
    · rw [hnext, (sameRun_request _ agenda before).begun]
      show ((m.after act (n + 1)).session.woken grid).clock.record.begun = _
      rw [ClockSession.clock_woken]
      rfl

end RunsFor

/-- **A running clock is in a run**: there was a last start. -/
theorem exists_runsFor {act : π → StateM (Host τ) ρ} {m : Moment τ π}
    (hstopped : m.session.clock.running = false) {n : Nat}
    (hrunning : (m.after act n).session.clock.running = true) :
    ∃ k j, n = k + (j + 1) ∧ (m.after act k).RunsFor act j := by
  induction n with
  | zero => exact absurd (hstopped.symm.trans hrunning) nofun
  | succ n ih =>
    cases hbefore : (m.after act n).session.clock.running with
    | false =>
      refine ⟨n, 0, rfl, hbefore, ?_⟩
      intro i hi
      obtain rfl := Nat.le_zero.mp hi
      exact hrunning
    | true =>
      obtain ⟨k, j, rfl, hruns⟩ := ih hbefore
      refine ⟨k, j + 1, rfl, hruns.stopped, ?_⟩
      intro i hi
      rcases Nat.lt_or_eq_of_le hi with hlt | rfl
      · exact hruns.running i (Nat.le_of_lt_succ hlt)
      · rw [← after_add]
        exact hrunning

end Moment

end Mos6502

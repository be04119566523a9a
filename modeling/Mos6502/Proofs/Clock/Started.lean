import Mos6502.Proofs.Clock.Replies
import Mos6502.Proofs.Clock.Stopping

/-!
# What a start has run

To start a stopped clock is to arm it and to ask for its first frame. The frame is refused while
another one is in progress, but `start` tells only that the clock was started. A handler can bring
this about: it can start the clock if it is called by a bare frame, or once it has stopped it.

**Starts** (`start_counted`). A start that is told as done has called its handler as often as a
frame has calls, unless a frame was in progress: then it has not called it at all.

**Runs** (`run_of_inFrame`). A run that begins inside a frame never calls its handler, so nobody
stops it, and it does not end.

**Main result** (`start_and_run_unless_inFrame`). A frame in progress is all that keeps a start
from running a frame, and a run from ending once its handler stops the clock.
-/

namespace Mos6502.Clock

variable {τ σ : Type}

/-! ## Counted handlers -/

/-- A handler that counts how often it is called. -/
def counted (handler : σ → ClockM τ σ) (p : Nat × σ) : ClockM τ (Nat × σ) := do
  let state ← handler p.2
  return (p.1 + 1, state)

theorem counted_eq (handler : σ → ClockM τ σ) (p : Nat × σ) (session : ClockSession τ) :
    counted handler p session = (handler p.2 session).map fun q => ((p.1 + 1, q.1), q.2) := by
  show (handler p.2 session).bind _ = _
  cases handler p.2 session <;> rfl

/-- Counting changes nothing else. -/
theorem projects_counted (handler : σ → ClockM τ σ) :
    Projects Prod.snd (counted handler) handler := by
  intro p session
  rw [counted_eq, Option.map_map]
  exact Option.map_id'

/-- The count is the number of calls, and counting changes nothing else. -/
theorem repeatCalls_counted (handler : σ → ClockM τ σ) (n : Nat) :
    ∀ (p : Nat × σ) (session : ClockSession τ), repeatCalls (counted handler) n p session =
      (repeatCalls handler n p.2 session).map fun q => ((p.1 + n, q.1), q.2) := by
  induction n with
  | zero => exact fun _ _ => rfl
  | succ n ih =>
    intro p session
    rw [repeatCalls_succ, repeatCalls_succ, counted_eq]
    cases handler p.2 session with
    | none => rfl
    | some q =>
      show repeatCalls (counted handler) n (p.1 + 1, q.1) q.2 = _
      rw [ih]
      simp only [Option.bind_some, Nat.add_right_comm p.1 1 n, Nat.add_assoc]

/-! ## A handler that stops at once -/

/-- A handler that stops the clock and does nothing else. -/
def stopping (_ : Unit) : ClockM τ Unit := do
  let _ ← stop
  return ()

theorem stopsAt_stopping (threshold : Option Level) :
    StopsAt (stopping : Unit → ClockM τ Unit) 1 threshold fun _ _ => True := by
  intro j state session _ hstanding _
  cases j with
  | zero =>
    obtain ⟨hrunning, grid, hgrid⟩ := hstanding.running Nat.one_pos
    refine ⟨(), session.stopped, ?_, trivial, ⟨fun h => absurd h (Nat.lt_irrefl 1), fun _ => rfl⟩,
      session.situation_stopped⟩
    exact ClockM.bind_of_eq_some (stop_of_running hrunning hgrid)
  | succ j =>
    have hstopped := hstanding.stopped (Nat.succ_pos j)
    refine ⟨(), session, ?_, trivial, ⟨fun h => absurd h (by omega), fun _ => hstopped⟩, rfl⟩
    exact ClockM.bind_of_eq_some (stop_of_stopped hstopped)

variable [TimeSource τ]

/-! ## Frames and starts -/

/-- The handler calls of a frame that is asked for now. -/
def dueCalls (clock : Clock) : Nat :=
  if clock.inFrame then 0 else clock.pace.calls

theorem frame_counted (handler : σ → ClockM τ σ) (p : Nat × σ) (session : ClockSession τ) :
    frame (counted handler) p session =
      (frame handler p.2 session).map fun q =>
        ((q.1.1, (p.1 + session.clock.dueCalls, q.1.2)), q.2) := by
  unfold dueCalls
  cases hinFrame : session.clock.inFrame with
  | true =>
    rw [frame_of_inFrame _ _ hinFrame, frame_of_inFrame _ _ hinFrame]
    rfl
  | false =>
    rw [frame_of_idle _ _ hinFrame, frame_of_idle _ _ hinFrame, repeatCalls_counted]
    simp only [Option.map_map]
    rfl

/-- **A start calls its handler** as often as a frame that is asked for now. -/
theorem start_counted (handler : σ → ClockM τ σ) (p : Nat × σ) (session : ClockSession τ) :
    start (counted handler) p session =
      (start handler p.2 session).map fun q =>
        ((q.1.1, (p.1 + if q.1.1 then session.clock.dueCalls else 0, q.1.2)), q.2) := by
  cases hrunning : session.clock.running with
  | true =>
    rw [start_of_running _ _ hrunning, start_of_running _ _ hrunning]
    rfl
  | false =>
    rw [start_of_stopped _ _ hrunning, start_of_stopped _ _ hrunning, frame_counted]
    simp only [Option.map_map]
    rfl

/-! ## Runs inside a frame -/

/-- A clock that is running while a frame is in progress. -/
structure Occupied (clock : Clock) : Prop where
  running : clock.running = true
  armed : ∃ grid, clock.grid = some grid
  inFrame : clock.inFrame = true

theorem tick_of_occupied (handler : σ → ClockM τ σ) (state : σ) {session : ClockSession τ}
    (h : session.clock.Occupied) :
    ∃ session' : ClockSession τ,
      tick handler state session = some ((.ok true, state), session') ∧
      session'.clock.Occupied := by
  obtain ⟨grid, hgrid⟩ := h.armed
  refine ⟨_, tick_of_inFrame handler state h.running hgrid h.inFrame, ?_⟩
  show (session.woken grid).clock.refuseFrame.Occupied
  rw [session.clock_woken]
  exact ⟨h.running, ⟨_, rfl⟩, h.inFrame⟩

/-- Ticks inside a frame go on for ever. -/
theorem tickUntilStopped_of_occupied (handler : σ → ClockM τ σ) (state : σ) (limit : Nat) :
    ∀ session : ClockSession τ, session.clock.Occupied →
      tickUntilStopped handler limit state session = none := by
  induction limit with
  | zero => exact fun _ _ => rfl
  | succ limit ih =>
    intro session h
    obtain ⟨session', htick, h'⟩ := tick_of_occupied handler state h
    rw [tickUntilStopped_succ, htick]
    exact ih session' h'

/-- **A run inside a frame does not end**, whatever its handler would do. -/
theorem run_of_inFrame (handler : σ → ClockM τ σ) (state : σ) {session : ClockSession τ}
    (hstopped : session.clock.running = false) (hinFrame : session.clock.inFrame = true)
    (limit : Nat) : run limit handler state session = none := by
  have hstarted : session.started.clock.inFrame = true := hinFrame
  rw [run_eq, start_of_stopped _ _ hstopped, frame_of_inFrame _ _ hstarted]
  exact tickUntilStopped_of_occupied handler state limit _ ⟨rfl, ⟨_, rfl⟩, hinFrame⟩

/-! ## Runs that are stopped at once -/

/-- A run whose handler stops the clock in its first call ends, unless a frame is in progress. -/
theorem isSome_run_iff {handler : σ → ClockM τ σ} {threshold : Option Level}
    {After : Nat → σ → Prop} (h : StopsAt handler 1 threshold After) {state : σ}
    (hafter : After 0 state) {session : ClockSession τ}
    (hthreshold : session.host.journal.threshold = threshold)
    (hstopped : session.clock.running = false) (limit : Nat) :
    (run (limit + 1) handler state session).isSome ↔ session.clock.inFrame = false := by
  cases hinFrame : session.clock.inFrame with
  | true => simp [run_of_inFrame handler state hstopped hinFrame]
  | false =>
    have hlimit : session.clock.pace.framesFor 1 ≤ limit + 1 := by
      rw [Pace.framesFor_one]
      exact Nat.succ_pos limit
    obtain ⟨state', session', hrun, -⟩ :=
      run_of_stopsAt h Nat.one_pos state session hafter hstopped hinFrame hthreshold hlimit
    simp [hrun]

/-- **Only a frame in progress** keeps a start from running a frame, and a run from ending once its
handler has stopped the clock in its first call. A clock that is running is not started again. -/
theorem start_and_run_unless_inFrame (handler : σ → ClockM τ σ) (state : σ)
    (session : ClockSession τ) :
    (start (counted handler) (0, state) session =
      (start handler state session).map fun q =>
        ((q.1.1, (if q.1.1 ∧ session.clock.inFrame = false then session.clock.pace.calls else 0,
          q.1.2)), q.2)) ∧
    ∀ (threshold : Option Level) (After : Nat → σ → Prop), StopsAt handler 1 threshold After →
      After 0 state → session.host.journal.threshold = threshold → ∀ limit : Nat,
        (run (limit + 1) handler state session).isSome ↔
          session.clock.running = true ∨ session.clock.inFrame = false := by
  constructor
  · rw [start_counted]
    unfold dueCalls
    cases session.clock.inFrame <;> simp
  · intro threshold After h hafter hthreshold limit
    cases hrunning : session.clock.running with
    | true =>
      rw [run_eq, start_of_running _ _ hrunning]
      simp
    | false => simpa using isSome_run_iff h hafter hthreshold hrunning limit

/-! ## A clock started by its own frame -/

/-- A new clock with two handler calls in a frame. -/
def twoCalls : ClockSession SimulatedTime :=
  ⟨{ pace := ⟨4000, 2000, by decide, by decide⟩ }, ⟨{}, {}⟩⟩

/-- A run that is stopped at once ends on this clock, but not inside a frame of it. -/
theorem run_stopping_twoCalls :
    (run 1 stopping () twoCalls).isSome ∧ ¬(run 1 stopping () twoCalls.entered.2).isSome := by
  have houtside := (start_and_run_unless_inFrame stopping () twoCalls).2 none _
    (stopsAt_stopping none) trivial rfl 0
  have hinside := (start_and_run_unless_inFrame stopping () twoCalls.entered.2).2 none _
    (stopsAt_stopping none) trivial rfl 0
  exact ⟨houtside.mpr (.inr rfl), fun h => (hinside.mp h).elim nofun nofun⟩

/-- There are no probes. -/
def unprobed : Empty → StateM (Host SimulatedTime) Empty :=
  nofun

/-- The start reports success without a call of its handler, and the run does not end, though its
handler would stop the clock at once. -/
theorem start_inFrame_runs_nothing :
    (∃ session' : ClockSession SimulatedTime,
      ClockCall.perform 0 (acting unprobed) (.frame [(1, .start [])]) twoCalls =
        some (.handled (.flag true) 2 [(1, .handled (.flag true) 0 [])], session')) ∧
    ∀ limit : Nat,
      ClockCall.perform limit (acting unprobed) (.frame [(1, .run [(1, .stop)])]) twoCalls =
        none := by
  refine ⟨⟨_, rfl⟩, fun limit => ?_⟩
  have hrun : run limit (scripted unprobed limit [(1, .stop)]) {} twoCalls.entered.2 = none :=
    run_of_inFrame _ _ rfl rfl limit
  have hcall : scripted unprobed limit [(1, .run [(1, .stop)])] {} twoCalls.entered.2 = none := by
    show ((ClockCall.perform limit (acting unprobed) (.run [(1, .stop)])
      twoCalls.entered.2).bind _).bind _ = none
    rw [perform_run, hrun]
    rfl
  show (frame (scripted unprobed limit [(1, .run [(1, .stop)])]) {} twoCalls).bind _ = none
  rw [frame_of_idle _ _ (show twoCalls.clock.inFrame = false from rfl)]
  show ((repeatCalls (scripted unprobed limit [(1, .run [(1, .stop)])]) (1 + 1) {}
    twoCalls.entered.2).map _).bind _ = none
  rw [repeatCalls_succ, hcall]
  rfl

end Mos6502.Clock

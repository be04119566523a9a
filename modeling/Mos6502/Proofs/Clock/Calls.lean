import Mos6502.Clock.Run

/-!
# The calls of a clock, one by one

What each call makes of a session, as an equation. A session changes in a handful of ways, each
of which has a name here: a frame is refused, entered or left, the clock is started, woken or
stopped. A call with a handler is one of these changes, the handler's calls, and another change.
-/

namespace Mos6502

namespace ClockSession

variable {τ : Type}

/-! ## Changes of a session -/

/-- Change the clock. -/
def onClock (session : ClockSession τ) (f : Clock → Clock) : ClockSession τ :=
  { session with clock := f session.clock }

/-- Go on with another host. -/
def onto (session : ClockSession τ) (host : Host τ) : ClockSession τ :=
  { session with host }

/-- Note an event. -/
def noted (session : ClockSession τ) (event : Event) : ClockSession τ :=
  { session with host := ((Host.note event).run session.host).2 }

/-- Refuse a frame. -/
def refused (session : ClockSession τ) : ClockSession τ :=
  (session.onClock Clock.refuseFrame).noted .frameRefused

/-- Stop the clock. -/
def stopped (session : ClockSession τ) : ClockSession τ :=
  (session.onClock Clock.disarm).noted (.clockStopped session.clock.record.frames)

variable [TimeSource τ]

/-- Read the time. -/
def timed (session : ClockSession τ) : Instant × ClockSession τ :=
  ((Host.now.run session.host).1, { session with host := (Host.now.run session.host).2 })

/-- Enter a frame; the time at its beginning. -/
def entered (session : ClockSession τ) : Instant × ClockSession τ :=
  (session.onClock Clock.enterFrame).timed

/-- Leave a frame that began at `began`. -/
def left (session : ClockSession τ) (began : Instant) : ClockSession τ :=
  let ended := session.timed
  let session := ended.2.onClock (·.leaveFrame (ended.1 - began))
  session.noted (.frameFinished session.clock.record.frames (ended.1 - began))

/-- Start the clock. -/
def started (session : ClockSession τ) : ClockSession τ :=
  let now := session.timed
  (now.2.onClock (·.arm now.1)).noted (.clockStarted session.clock.pace.target
    session.clock.pace.callsPerFrame session.clock.pace.intervalMilliseconds)

/-- Wait for the next deadline of a grid; the number of deadlines that were missed. -/
def awaited (session : ClockSession τ) (grid : FrameGrid) :
    (UInt64 × FrameGrid) × ClockSession τ :=
  ((grid.wait.run session.host).1, { session with host := (grid.wait.run session.host).2 })

/-- Wait for the next deadline of a grid, and put the grid back. -/
def woken (session : ClockSession τ) (grid : FrameGrid) : ClockSession τ :=
  let missed := (session.awaited grid).1.1
  let session := (session.awaited grid).2.onClock (·.wake (session.awaited grid).1.2 missed)
  if missed ≠ 0 then session.noted (.deadlinesMissed missed) else session

/-- Take the measurements anew. -/
def measured (session : ClockSession τ) : ClockSession τ :=
  session.timed.2.onClock (·.measure session.timed.1)

theorem clock_woken (session : ClockSession τ) (grid : FrameGrid) :
    (session.woken grid).clock =
      session.clock.wake (session.awaited grid).1.2 (session.awaited grid).1.1 := by
  unfold woken
  by_cases hmissed : (session.awaited grid).1.1 ≠ 0
  · rw [if_pos hmissed]
    rfl
  · rw [if_neg hmissed]
    rfl

end ClockSession

/-! ## Actions in a row -/

/-- An action that succeeds is followed by what comes next. -/
theorem ClockM.bind_of_eq_some {τ α γ : Type} {action : ClockM τ α} {next : α → ClockM τ γ}
    {value : α} {session session' : ClockSession τ} (h : action session = some (value, session')) :
    (action >>= next) session = next value session' := by
  show (action session).bind _ = _
  rw [h]
  rfl

theorem ClockM.onHost_of_run {τ α : Type} {action : StateM (Host τ) α}
    {session : ClockSession τ} {value : α} {host' : Host τ}
    (h : action.run session.host = (value, host')) :
    onHost action session = some (value, session.onto host') := by
  show some ((action.run session.host).1, (⟨session.clock, (action.run session.host).2⟩ :
    ClockSession τ)) = _
  rw [h]
  rfl

namespace Clock

open ClockM

variable {τ σ : Type}

/-! ## Stopping -/

theorem stop_of_stopped {session : ClockSession τ} (h : session.clock.running = false) :
    stop session = some (.ok (), session) := by
  show (if session.clock.running = true then _ else _ : ClockM τ (Except ClockFault Unit)) session
    = _
  rw [h]
  rfl

theorem stop_of_running {session : ClockSession τ} {grid : FrameGrid}
    (h : session.clock.running = true) (hgrid : session.clock.grid = some grid) :
    stop session = some (.ok (), session.stopped) := by
  obtain ⟨⟨pace, running, armed, inFrame, record⟩, host⟩ := session
  obtain rfl : running = true := h
  obtain rfl : armed = some grid := hgrid
  rfl

theorem stop_of_unarmed {session : ClockSession τ} (h : session.clock.running = true)
    (hgrid : session.clock.grid = none) : stop session = some (.error .unarmed, session) := by
  obtain ⟨⟨pace, running, armed, inFrame, record⟩, host⟩ := session
  obtain rfl : running = true := h
  obtain rfl : armed = none := hgrid
  rfl

/-! ## The grid of a running clock -/

/-- The grid that a tick waits on. -/
def awaitedGrid (clock : Clock) : Option FrameGrid :=
  if clock.running then clock.grid else none

theorem of_awaitedGrid_eq_some {clock : Clock} {grid : FrameGrid}
    (h : clock.awaitedGrid = some grid) : clock.running = true ∧ clock.grid = some grid := by
  unfold awaitedGrid at h
  cases hrunning : clock.running with
  | false =>
    rw [hrunning] at h
    cases h
  | true =>
    rw [if_pos hrunning] at h
    exact ⟨rfl, h⟩

theorem stop_of_awaitedGrid_none {session : ClockSession τ}
    (h : session.clock.awaitedGrid = none) :
    ∃ result : Except ClockFault Unit, stop session = some (result, session) := by
  cases hrunning : session.clock.running with
  | false => exact ⟨.ok (), stop_of_stopped hrunning⟩
  | true =>
    unfold awaitedGrid at h
    rw [if_pos hrunning] at h
    exact ⟨.error .unarmed, stop_of_unarmed hrunning h⟩

/-- Either nothing has been done, or the clock has been stopped. -/
theorem of_stop_eq_some {session session' : ClockSession τ} {result : Except ClockFault Unit}
    (h : stop session = some (result, session')) :
    session' = session ∨ session' = session.stopped := by
  cases hgrid : session.clock.awaitedGrid with
  | none =>
    obtain ⟨_, hunchanged⟩ := stop_of_awaitedGrid_none hgrid
    rw [hunchanged] at h
    cases h
    exact .inl rfl
  | some grid =>
    obtain ⟨hrunning, hgrid⟩ := of_awaitedGrid_eq_some hgrid
    rw [stop_of_running hrunning hgrid] at h
    cases h
    exact .inr rfl

/-! ## Handlers -/

theorem repeatCalls_succ (handler : σ → ClockM τ σ) (n : Nat) (state : σ)
    (session : ClockSession τ) :
    repeatCalls handler (n + 1) state session =
      (handler state session).bind fun p => repeatCalls handler n p.1 p.2 := by
  rw [repeatCalls]
  dsimp only
  cases handler state session <;> rfl

/-- The last call, after the others. -/
theorem repeatCalls_succ_last (handler : σ → ClockM τ σ) (n : Nat) :
    ∀ (state : σ) (session : ClockSession τ), repeatCalls handler (n + 1) state session =
      (repeatCalls handler n state session).bind fun p => handler p.1 p.2 := by
  induction n with
  | zero =>
    intro state session
    rw [repeatCalls_succ]
    exact Option.bind_fun_some _
  | succ n ih =>
    intro state session
    rw [repeatCalls_succ, repeatCalls_succ handler n, Option.bind_assoc]
    exact congrArg _ (funext fun p => ih p.1 p.2)

variable [TimeSource τ]

/-! ## Frames -/

theorem frame_of_inFrame (handler : σ → ClockM τ σ) (state : σ) {session : ClockSession τ}
    (h : session.clock.inFrame = true) :
    frame handler state session = some ((false, state), session.refused) := by
  show (if session.clock.inFrame = true then _ else _ : ClockM τ (Bool × σ)) session = _
  rw [h]
  rfl

theorem frame_of_idle (handler : σ → ClockM τ σ) (state : σ) {session : ClockSession τ}
    (h : session.clock.inFrame = false) :
    frame handler state session =
      (repeatCalls handler session.clock.pace.callsPerFrame.toNat state session.entered.2).map
        fun p => ((true, p.1), p.2.left session.entered.1) := by
  show (if session.clock.inFrame = true then _ else _ : ClockM τ (Bool × σ)) session = _
  rw [h]
  show (repeatCalls handler session.clock.pace.callsPerFrame.toNat state
    session.entered.2).bind _ = _
  cases repeatCalls handler session.clock.pace.callsPerFrame.toNat state session.entered.2 <;> rfl

/-! ## Starting and ticking -/

theorem start_of_running (handler : σ → ClockM τ σ) (state : σ) {session : ClockSession τ}
    (h : session.clock.running = true) :
    start handler state session = some ((false, state), session) := by
  show (if session.clock.running = true then _ else _ : ClockM τ (Bool × σ)) session = _
  rw [h]
  rfl

theorem start_of_stopped (handler : σ → ClockM τ σ) (state : σ) {session : ClockSession τ}
    (h : session.clock.running = false) :
    start handler state session =
      (frame handler state session.started).map fun p => ((true, p.1.2), p.2) := by
  show (if session.clock.running = true then _ else _ : ClockM τ (Bool × σ)) session = _
  rw [h]
  show (frame handler state session.started).bind _ = _
  cases frame handler state session.started <;> rfl

theorem tick_of_stopped (handler : σ → ClockM τ σ) (state : σ) {session : ClockSession τ}
    (h : session.clock.running = false) :
    tick handler state session = some ((.ok false, state), session) := by
  show (if session.clock.running = true then _ else _ : ClockM τ (Except ClockFault Bool × σ))
    session = _
  rw [h]
  rfl

theorem tick_of_unarmed (handler : σ → ClockM τ σ) (state : σ) {session : ClockSession τ}
    (h : session.clock.running = true) (hgrid : session.clock.grid = none) :
    tick handler state session = some ((.error .unarmed, state), session) := by
  obtain ⟨⟨pace, running, armed, inFrame, record⟩, host⟩ := session
  obtain rfl : running = true := h
  obtain rfl : armed = none := hgrid
  rfl

theorem tick_of_awaitedGrid_none (handler : σ → ClockM τ σ) (state : σ)
    {session : ClockSession τ} (h : session.clock.awaitedGrid = none) :
    ∃ result : Except ClockFault Bool, result ≠ .ok true ∧
      tick handler state session = some ((result, state), session) := by
  cases hrunning : session.clock.running with
  | false => exact ⟨.ok false, nofun, tick_of_stopped handler state hrunning⟩
  | true =>
    unfold awaitedGrid at h
    rw [if_pos hrunning] at h
    exact ⟨.error .unarmed, nofun, tick_of_unarmed handler state hrunning h⟩

/-- What is left of a tick once the clock is awake. -/
def tickAwake (handler : σ → ClockM τ σ) (state : σ) : ClockM τ (Except ClockFault Bool × σ) := do
  let (_, state) ← frame handler state
  return (.ok (← getClock).running, state)

theorem tickAwake_eq (handler : σ → ClockM τ σ) (state : σ) (session : ClockSession τ) :
    tickAwake handler state session =
      (frame handler state session).map fun p => ((.ok p.2.clock.running, p.1.2), p.2) := by
  show (frame handler state session).bind _ = _
  cases frame handler state session <;> rfl

theorem tick_of_running (handler : σ → ClockM τ σ) (state : σ) {session : ClockSession τ}
    {grid : FrameGrid} (h : session.clock.running = true)
    (hgrid : session.clock.grid = some grid) :
    tick handler state session =
      (frame handler state (session.woken grid)).map fun p =>
        ((.ok p.2.clock.running, p.1.2), p.2) := by
  -- The note about missed deadlines is made or not before the same rest.
  have hrest : tick handler state session =
      (if (session.awaited grid).1.1 ≠ 0 then
        onHost (Host.note (.deadlinesMissed (session.awaited grid).1.1)) >>=
          fun _ => tickAwake handler state
      else tickAwake handler state : ClockM τ (Except ClockFault Bool × σ))
        ((session.awaited grid).2.onClock
          (·.wake (session.awaited grid).1.2 (session.awaited grid).1.1)) := by
    obtain ⟨⟨pace, running, armed, inFrame, record⟩, host⟩ := session
    obtain rfl : running = true := h
    obtain rfl : armed = some grid := hgrid
    rfl
  rw [hrest, ← tickAwake_eq, ClockSession.woken]
  by_cases hmissed : (session.awaited grid).1.1 ≠ 0
  · rw [if_pos hmissed, if_pos hmissed]
    rfl
  · rw [if_neg hmissed, if_neg hmissed]

/-- A tick inside a frame is refused its frame, and the clock goes on. -/
theorem tick_of_inFrame (handler : σ → ClockM τ σ) (state : σ) {session : ClockSession τ}
    {grid : FrameGrid} (h : session.clock.running = true)
    (hgrid : session.clock.grid = some grid) (hinFrame : session.clock.inFrame = true) :
    tick handler state session = some ((.ok true, state), (session.woken grid).refused) := by
  have hclock := session.clock_woken grid
  have hstill : (session.woken grid).refused.clock.running = true := by
    show (session.woken grid).clock.running = true
    rw [hclock]
    exact h
  have hbusy : (session.woken grid).clock.inFrame = true := by
    rw [hclock]
    exact hinFrame
  rw [tick_of_running _ _ h hgrid, frame_of_inFrame _ _ hbusy, Option.map_some, hstill]

/-! ## Running -/

theorem tickUntilStopped_succ (handler : σ → ClockM τ σ) (limit : Nat) (state : σ)
    (session : ClockSession τ) :
    tickUntilStopped handler (limit + 1) state session =
      (tick handler state session).bind fun p =>
        match p.1.1 with
        | .ok true => tickUntilStopped handler limit p.1.2 p.2
        | .ok false => some ((.ok (), p.1.2), p.2)
        | .error fault => some ((.error fault, p.1.2), p.2) := by
  show (tick handler state session).bind _ = _
  cases tick handler state session with
  | none => rfl
  | some p =>
    obtain ⟨⟨result, state⟩, session⟩ := p
    cases result with
    | error fault => rfl
    | ok running => cases running <;> rfl

theorem run_eq (limit : Nat) (handler : σ → ClockM τ σ) (state : σ) (session : ClockSession τ) :
    run limit handler state session =
      (start handler state session).bind fun p =>
        if p.1.1 then tickUntilStopped handler limit p.1.2 p.2
        else some ((.ok (), p.1.2), p.2) := by
  show (start handler state session).bind _ = _
  cases start handler state session with
  | none => rfl
  | some p =>
    obtain ⟨⟨running, state⟩, session⟩ := p
    cases running <;> rfl

/-! ## Looking at a clock -/

theorem readRecord_of_stopped {session : ClockSession τ} (h : session.clock.running = false) :
    readRecord session = some (session.clock.record, session) := by
  show (if session.clock.running = true then _ else _ : ClockM τ ClockRecord) session = _
  rw [h]
  rfl

theorem readRecord_of_running {session : ClockSession τ} (h : session.clock.running = true) :
    readRecord session = some (session.measured.clock.record, session.measured) := by
  show (if session.clock.running = true then _ else _ : ClockM τ ClockRecord) session = _
  rw [h]
  rfl

/-- The frames are counted, not measured. -/
theorem frames_readRecord {session session' : ClockSession τ} {record : ClockRecord}
    (h : readRecord session = some (record, session')) :
    record.frames = session.clock.record.frames := by
  cases hrunning : session.clock.running with
  | false =>
    rw [readRecord_of_stopped hrunning] at h
    cases h
    rfl
  | true =>
    rw [readRecord_of_running hrunning] at h
    cases h
    rfl

end Clock

end Mos6502

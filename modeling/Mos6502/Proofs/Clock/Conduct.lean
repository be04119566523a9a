import Mathlib.Algebra.GroupWithZero.Nat
import Mos6502.Proofs.Clock.Started

/-!
# Handlers that stop their clock and go on using it

While a clock calls its handler it is in a frame. Whatever the handler asks of it then, no frame is
run: a frame is refused, a start or a run of the clock that is running comes back at once, and so
does a tick once it has waited. What the handler does, from the session it is called with on, can be
followed by whether the clock is running (`Conduct`): a stop ends that, and a start, which would
begin it again, is not made then.

**One call** (`Conduct.comes`). A call of such a handler returns, and leaves the clock in its frame,
running or stopped as the conduct says.

**The handler** (`StopsFrom`). Its conduct is to stop the clock in its `k`-th call. That is asked of
the calls that the run reaches and of no others, so the handler may decide by the time or by the
record of the clock when to stop.

**Main result** (`run_ends_with_frame`). A run makes all calls of the least number of frames that
hold `k` calls, and the clock is ready for further runs.
-/

namespace Mos6502

open ClockM

variable {τ : Type}

/-! ## Conduct -/

/-- A clock at a place, which is running if `going` says so, and has deadlines then. -/
structure InCall (place : Place) (going : Bool) (session : ClockSession τ) : Prop where
  running : session.clock.running = going
  armed : going = true → ∃ grid, session.clock.grid = some grid
  place : session.place = place

theorem InCall.inFrame {place : Place} {going : Bool} {session : ClockSession τ}
    (h : InCall place going session) (hinFrame : place.inFrame = true) :
    session.clock.inFrame = true :=
  (congrArg Place.inFrame h.place).trans hinFrame

/-- Between the calls of a handler that stops its clock in the `k`-th, the clock is running until
then. -/
theorem InCall.of_standing {k j : Nat} {place : Place} {session : ClockSession τ}
    (h : Clock.Standing k j session.clock) (hplace : session.place = place) :
    InCall place (decide (j < k)) session := by
  by_cases hlt : j < k
  · rw [decide_eq_true hlt]
    exact ⟨(h.running hlt).1, fun _ => (h.running hlt).2, hplace⟩
  · rw [decide_eq_false hlt]
    exact ⟨h.stopped (Nat.not_lt.mp hlt), nofun, hplace⟩

theorem InCall.standing {k j : Nat} {place : Place} {session : ClockSession τ}
    (h : InCall place (decide (j < k)) session) : Clock.Standing k j session.clock where
  running hlt := ⟨h.running.trans (decide_eq_true hlt), h.armed (decide_eq_true hlt)⟩
  stopped hle := h.running.trans (decide_eq_false (Nat.not_lt.mpr hle))

theorem InCall.stop_comes {place : Place} {running : Bool} {session : ClockSession τ}
    (h : InCall place running session) :
    ∃ session' : ClockSession τ, Clock.stop session = some (.ok (), session') ∧
      InCall place false session' := by
  cases running with
  | false => exact ⟨session, Clock.stop_of_stopped h.running, h⟩
  | true =>
    obtain ⟨grid, hgrid⟩ := h.armed rfl
    exact ⟨session.stopped, Clock.stop_of_running h.running hgrid, rfl, nofun, h.place⟩

variable [TimeSource τ]

/-- What a handler does from a session on, with a clock that is running before it if `before` says
so, and after it if `after` does. The clock is started or run only while it is running, so it does
not begin to run. What is done next may depend on everything that has come of what was done before.
The handlers that the calls are made with are not called, and may be any. -/
inductive Conduct : {α : Type} → (before : Bool) → ClockM τ α → ClockSession τ → (after : Bool) →
    Prop
  | pure {α : Type} {running : Bool} {value : α} {session : ClockSession τ} :
    Conduct running (pure value) session running
  | bind {α γ : Type} {before between after : Bool} {action : ClockM τ α} {next : α → ClockM τ γ}
    {session : ClockSession τ} (h : Conduct before action session between)
    (h' : ∀ (value : α) (session' : ClockSession τ), action session = some (value, session') →
      Conduct between (next value) session' after) :
    Conduct before (action >>= next) session after
  | onHost {α : Type} {running : Bool} {action : StateM (Host τ) α} {session : ClockSession τ} :
    Conduct running (onHost action) session running
  | look {running : Bool} {session : ClockSession τ} : Conduct running getClock session running
  | frame {σ : Type} {running : Bool} {handler : σ → ClockM τ σ} {state : σ}
    {session : ClockSession τ} : Conduct running (Clock.frame handler state) session running
  | tick {σ : Type} {running : Bool} {handler : σ → ClockM τ σ} {state : σ}
    {session : ClockSession τ} : Conduct running (Clock.tick handler state) session running
  | start {σ : Type} {handler : σ → ClockM τ σ} {state : σ} {session : ClockSession τ} :
    Conduct true (Clock.start handler state) session true
  | run {σ : Type} {limit : Nat} {handler : σ → ClockM τ σ} {state : σ}
    {session : ClockSession τ} : Conduct true (Clock.run limit handler state) session true
  | record {running : Bool} {session : ClockSession τ} :
    Conduct running Clock.readRecord session running
  | stop {running : Bool} {session : ClockSession τ} : Conduct running Clock.stop session false

namespace Conduct

variable {place : Place} {running : Bool} {session : ClockSession τ}

theorem tick_comes {σ : Type} (handler : σ → ClockM τ σ) (state : σ)
    (h : InCall place running session) (hinFrame : place.inFrame = true) :
    ∃ session' : ClockSession τ,
      Clock.tick handler state session = some ((.ok running, state), session') ∧
      InCall place running session' := by
  cases running with
  | false => exact ⟨session, Clock.tick_of_stopped handler state h.running, h⟩
  | true =>
    obtain ⟨grid, hgrid⟩ := h.armed rfl
    refine ⟨_, Clock.tick_of_inFrame handler state h.running hgrid (h.inFrame hinFrame), ?_, ?_, ?_⟩
    · show (session.woken grid).clock.running = true
      rw [session.clock_woken]
      exact h.running
    · show true = true → ∃ grid', (session.woken grid).clock.grid = some grid'
      rw [session.clock_woken]
      exact fun _ => ⟨_, rfl⟩
    · exact (session.place_woken grid).trans h.place

theorem record_comes (h : InCall place running session) :
    ∃ (record : ClockRecord) (session' : ClockSession τ),
      Clock.readRecord session = some (record, session') ∧ InCall place running session' := by
  cases running with
  | false => exact ⟨_, _, Clock.readRecord_of_stopped h.running, h⟩
  | true => exact ⟨_, _, Clock.readRecord_of_running h.running, h.running, h.armed, h.place⟩

/-- **A conduct comes to an end** in the frame that it began in. -/
theorem comes {α : Type} {before after : Bool} {action : ClockM τ α} {session : ClockSession τ}
    (h : Conduct before action session after) (hinFrame : place.inFrame = true) :
    InCall place before session →
      ∃ (value : α) (session' : ClockSession τ), action session = some (value, session') ∧
        InCall place after session' := by
  induction h with
  | @pure _ _ value session => exact fun hcall => ⟨value, session, rfl, hcall⟩
  | bind _ _ ih ih' =>
    intro hcall
    obtain ⟨value₁, session₁, haction, hcall₁⟩ := ih hcall
    obtain ⟨value₂, session₂, hnext, hcall₂⟩ := ih' value₁ session₁ haction hcall₁
    exact ⟨value₂, session₂, (bind_of_eq_some haction).trans hnext, hcall₂⟩
  | @onHost _ _ action session =>
    exact fun hcall => ⟨_, session.onto _, rfl, hcall.running, hcall.armed, hcall.place⟩
  | @look _ session => exact fun hcall => ⟨_, session, rfl, hcall⟩
  | @frame _ _ handler state session =>
    exact fun hcall => ⟨_, session.refused, Clock.frame_of_inFrame _ _ (hcall.inFrame hinFrame),
      hcall.running, hcall.armed, hcall.place⟩
  | tick =>
    intro hcall
    obtain ⟨session', htick, hcall'⟩ := tick_comes _ _ hcall hinFrame
    exact ⟨_, session', htick, hcall'⟩
  | @start _ _ _ session =>
    exact fun hcall => ⟨_, session, Clock.start_of_running _ _ hcall.running, hcall⟩
  | @run _ limit handler state session =>
    intro hcall
    refine ⟨(.ok (), state), session, ?_, hcall⟩
    rw [Clock.run_eq, Clock.start_of_running _ _ hcall.running]
    rfl
  | record => exact record_comes
  | stop =>
    intro hcall
    obtain ⟨session', hstop, hcall'⟩ := hcall.stop_comes
    exact ⟨_, session', hstop, hcall'⟩

end Conduct

/-! ## Handlers -/

/-- A handler, and the number of the call in which it is to stop its clock for the first time. -/
structure StoppingHandler (τ : Type) where
  State : Type
  handler : State → ClockM τ State
  initial : State
  k : Nat
  pos : 0 < k

namespace StoppingHandler

/-- Run a clock with a handler, and count the calls of the handler. -/
def run (limit : Nat) (h : StoppingHandler τ) : ClockM τ (Except ClockFault Unit × Nat) := do
  let (result, calls, _) ← Clock.run limit (Clock.counted h.handler) (0, h.initial)
  return (result, calls)

/-- In a run from `start`, the conduct of the handler is to stop the clock in its `k`-th call, for
the first time, and not to start it again. Of calls that the run does not reach nothing is asked. -/
def StopsFrom (h : StoppingHandler τ) (start : ClockSession τ) : Prop :=
  ∀ (j : Nat) (state : h.State) (session : ClockSession τ),
    Clock.ReachesCall h.handler h.initial start j state session →
    InCall (start.callPlace j) (decide (j < h.k)) session →
    Conduct (decide (j < h.k)) (h.handler state) session (decide (j + 1 < h.k))

/-- **The handler stops the clock in its `k`-th call.** -/
theorem StopsFrom.stops {h : StoppingHandler τ} {start : ClockSession τ}
    (hstops : h.StopsFrom start) :
    Clock.Stops (Clock.counted h.handler) (0, h.initial) start h.k fun j p _ => p.1 = j := by
  intro j p session hreached hstage
  obtain ⟨hcount, hstanding, hplace⟩ := hstage
  have hcall := InCall.of_standing hstanding hplace
  have hreached' := (Clock.projects_counted h.handler).reachesCall hreached
  obtain ⟨state', session', hhandler, hcall'⟩ :=
    (hstops j p.2 session hreached' hcall).comes rfl hcall
  refine ⟨(p.1 + 1, state'), session', ?_, congrArg (· + 1) hcount, hcall'.standing, hcall'.place⟩
  rw [Clock.counted_eq, hhandler]
  rfl

/-- **A run ends with the frame in which its handler stops the clock.** -/
theorem StopsFrom.run_eq_some {h : StoppingHandler τ} {session : ClockSession τ}
    (hstops : h.StopsFrom session) (hstopped : session.clock.running = false)
    (hidle : session.clock.inFrame = false) {limit : Nat}
    (hlimit : session.clock.pace.framesFor h.k ≤ limit) :
    ∃ session' : ClockSession τ,
      h.run limit session = some
        ((.ok (), session.clock.pace.framesFor h.k * session.clock.pace.calls), session') ∧
      session'.clock.running = false ∧
      session'.place = session.place.later (session.clock.pace.framesFor h.k) := by
  obtain ⟨⟨calls, state⟩, session', hrun, hcalls, hrunning, hplace⟩ :=
    Clock.run_of_stops hstops.stops h.pos rfl hstopped hidle hlimit
  refine ⟨session', ?_, hrunning, hplace⟩
  rw [← hcalls]
  exact bind_of_eq_some hrun

/-! ## Runs one after another -/

/-- Each of these handlers stops the clock in the run that begins where the runs of the handlers
before it have ended. -/
def StopInTurn (limit : Nat) : List (StoppingHandler τ) → ClockSession τ → Prop
  | [], _ => True
  | h :: rest, session =>
    h.StopsFrom session ∧ ∀ (result : Except ClockFault Unit × Nat) (session' : ClockSession τ),
      h.run limit session = some (result, session') → StopInTurn limit rest session'

end StoppingHandler

theorem mapM_run_eq_some (limit : Nat) (handlers : List (StoppingHandler τ)) :
    ∀ session : ClockSession τ, session.clock.running = false → session.clock.inFrame = false →
      StoppingHandler.StopInTurn limit handlers session →
      (∀ h ∈ handlers, session.clock.pace.framesFor h.k ≤ limit) →
      ∃ session' : ClockSession τ,
        handlers.mapM (StoppingHandler.run limit) session = some
          (handlers.map fun h =>
            (.ok (), session.clock.pace.framesFor h.k * session.clock.pace.calls), session') ∧
        session'.clock.running = false ∧
        session'.place = session.place.later
          (handlers.map fun h => session.clock.pace.framesFor h.k).sum := by
  induction handlers with
  | nil => exact fun session hstopped _ _ _ => ⟨session, rfl, hstopped, rfl⟩
  | cons h rest ih =>
    intro session hstopped hidle hstops hlimit
    obtain ⟨hfirst, hothers⟩ := List.forall_mem_cons.mp hlimit
    obtain ⟨session₁, hrun, hstopped₁, hplace₁⟩ := hstops.1.run_eq_some hstopped hidle hfirst
    have hpace : session₁.clock.pace = session.clock.pace := congrArg Place.pace hplace₁
    obtain ⟨session₂, hruns, hstopped₂, hplace₂⟩ :=
      ih session₁ hstopped₁ ((congrArg Place.inFrame hplace₁).trans hidle) (hstops.2 _ _ hrun)
        (by rw [hpace]; exact hothers)
    rw [hpace] at hruns hplace₂
    refine ⟨session₂, ?_, hstopped₂, ?_⟩
    · rw [List.mapM_cons, bind_of_eq_some hrun]
      exact bind_of_eq_some hruns
    · rw [hplace₂, hplace₁, Place.later_later]
      rfl

/-- **A run ends with the frame in which its handler stops the clock**, and has called the handler
as often as that takes whole frames. Further runs of such handlers, one after another, go on from
there in the same way. -/
theorem run_ends_with_frame (h : StoppingHandler τ) (session : ClockSession τ)
    (hstops : h.StopsFrom session) (hstopped : session.clock.running = false)
    (hidle : session.clock.inFrame = false) (limit : Nat)
    (hlimit : session.clock.pace.framesFor h.k ≤ limit) :
    ∃ session' : ClockSession τ,
      h.run limit session = some
        ((.ok (), session.clock.pace.framesFor h.k * session.clock.pace.calls), session') ∧
      session'.clock.running = false ∧ session'.clock.inFrame = false ∧
      session'.clock.pace = session.clock.pace ∧
      session'.clock.record.frames =
        session.clock.record.frames + session.clock.pace.framesFor h.k ∧
      ∀ following : List (StoppingHandler τ),
        StoppingHandler.StopInTurn limit following session' →
        (∀ h' ∈ following, session.clock.pace.framesFor h'.k ≤ limit) →
        ∃ session'' : ClockSession τ,
          following.mapM (StoppingHandler.run limit) session' = some
            (following.map fun h' =>
              (.ok (), session.clock.pace.framesFor h'.k * session.clock.pace.calls), session'') ∧
          session''.clock.running = false ∧ session''.clock.inFrame = false ∧
          session''.clock.record.frames = session'.clock.record.frames +
            (following.map fun h' => session.clock.pace.framesFor h'.k).sum := by
  obtain ⟨session', hrun, hstopped', hplace'⟩ := hstops.run_eq_some hstopped hidle hlimit
  have hidle' : session'.clock.inFrame = false := (congrArg Place.inFrame hplace').trans hidle
  have hpace : session'.clock.pace = session.clock.pace := congrArg Place.pace hplace'
  refine ⟨session', hrun, hstopped', hidle', hpace, congrArg Place.frames hplace',
    fun following hfollows hfollowing => ?_⟩
  rw [← hpace] at hfollowing ⊢
  obtain ⟨session'', hruns, hstopped'', hplace''⟩ :=
    mapM_run_eq_some limit following session' hstopped' hidle' hfollows hfollowing
  exact ⟨session'', hruns, hstopped'', (congrArg Place.inFrame hplace'').trans hidle',
    congrArg Place.frames hplace''⟩

/-! ## A handler that looks at the record -/

/-- A handler that stops the clock if the record tells of a finished frame, and otherwise asks in
vain for starts and runs. -/
def meddling (_ : Unit) : ClockM SimulatedTime Unit := do
  let record ← Clock.readRecord
  if record.frames = 0 then
    let _ ← Clock.start Clock.stopping ()
    let _ ← Clock.run 0 Clock.stopping ()
  else
    let _ ← Clock.frame Clock.stopping ()
    let _ ← Clock.stop
    let _ ← Clock.tick Clock.stopping ()

theorem conduct_meddling {place : Place} {going : Bool} {session : ClockSession SimulatedTime}
    (h : InCall place going session) (hgoing : place.frames = 0 → going = true) :
    Conduct going (meddling ()) session (decide (place.frames = 0)) := by
  refine .bind .record fun record session' hrecord => ?_
  have hframes : record.frames = place.frames :=
    (Clock.frames_readRecord hrecord).trans (congrArg Place.frames h.place)
  rw [hframes]
  by_cases hzero : place.frames = 0
  · rw [if_pos hzero, decide_eq_true hzero, hgoing hzero]
    exact .bind .start fun _ _ _ => .bind .run fun _ _ _ => .pure
  · rw [if_neg hzero, decide_eq_false hzero]
    exact .bind .frame fun _ _ _ => .bind .stop fun _ _ _ => .bind .tick fun _ _ _ => .pure

/-- The handler, where it stops the clock in its `k`-th call. -/
def meddler (k : Nat) (pos : 0 < k) : StoppingHandler SimulatedTime :=
  { State := Unit, handler := meddling, initial := (), k, pos }

/-- On a new clock with two calls in a frame the third call is the first one after a frame. -/
theorem stopsFrom_meddler : (meddler 3 (by decide)).StopsFrom Clock.twoCalls := by
  intro j _ session _ hcall
  have hearly : (Clock.twoCalls.callPlace j).frames = 0 ↔ j + 1 < 3 := by
    show 0 + j / 2 = 0 ↔ j + 1 < 3
    omega
  have hconduct : Conduct (decide (j < 3)) (meddling ()) session
      (decide ((Clock.twoCalls.callPlace j).frames = 0)) :=
    conduct_meddling hcall fun hzero => decide_eq_true (Nat.lt_of_succ_lt (hearly.mp hzero))
  rwa [decide_eq_decide.mpr hearly] at hconduct

/-- On a clock that has finished a frame it is the first call. -/
theorem stopsFrom_meddler_of_frames {session : ClockSession SimulatedTime}
    (h : session.clock.record.frames ≠ 0) : (meddler 1 Nat.one_pos).StopsFrom session := by
  intro j _ session' _ hcall
  have hlate : ¬(session.callPlace j).frames = 0 :=
    fun hzero => h (Nat.eq_zero_of_add_eq_zero_right hzero)
  have hconduct := conduct_meddling hcall fun hzero => absurd hzero hlate
  rwa [decide_eq_false hlate, ← decide_eq_false (Nat.not_lt.mpr (Nat.succ_pos j))] at hconduct

theorem run_ends_with_frame_meddler :
    ∃ session' session'' : ClockSession SimulatedTime,
      (meddler 3 (by decide)).run 2 Clock.twoCalls = some ((.ok (), 4), session') ∧
      session'.clock.running = false ∧ session'.clock.record.frames = 2 ∧
      [meddler 1 Nat.one_pos].mapM (StoppingHandler.run 2) session' =
        some ([(.ok (), 2)], session'') ∧
      session''.clock.running = false ∧ session''.clock.record.frames = 3 := by
  obtain ⟨session', hrun, hstopped, -, -, hframes, hfollowing⟩ :=
    run_ends_with_frame (meddler 3 (by decide)) Clock.twoCalls stopsFrom_meddler rfl rfl 2
      (by decide)
  have hfinished : session'.clock.record.frames ≠ 0 := by
    rw [hframes]
    decide
  obtain ⟨session'', hruns, hstopped', -, hframes'⟩ :=
    hfollowing [meddler 1 Nat.one_pos] ⟨stopsFrom_meddler_of_frames hfinished, fun _ _ _ => trivial⟩
      (by decide)
  rw [hframes] at hframes'
  exact ⟨session', session'', hrun, hstopped, hframes, hruns, hstopped', hframes'⟩

end Mos6502

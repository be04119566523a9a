import Mos6502.Proofs.Host
import Mos6502.Proofs.Clock.Reached

/-!
# Handlers that stop their clock

A handler that stops the clock in its `k`-th call and does not start it again ends a run. What else
it does with the clock comes to nothing, since the clock is in a frame when the handler is called.
What the handler has made of its own state after `j` calls is a predicate of `j` and the state, so
that a run tells what the handler made of its state in the calls of whole frames.

**The run** (`run_of_stops`). On a stopped and idle clock a run ends after the least number of
frames that hold `k` calls. All calls of these frames are made, those after the `k`-th too. Each
call that the run reaches, each frame and each tick leads from one stage of the run to a later one
(`Stage`). Of calls that it does not reach nothing is asked (`Stops`).

**The plainest case** (`run_of_stopsAt`). The handler does nothing with the clock but stop it.
-/

namespace Mos6502

/-! ## Places -/

/-- What of a clock no handler can change while the clock is calling it. -/
structure Place where
  inFrame : Bool
  pace : Pace
  frames : Nat

/-- The place `m` frames later. -/
def Place.later (place : Place) (m : Nat) : Place :=
  { place with frames := place.frames + m }

theorem Place.later_later (place : Place) (m n : Nat) :
    (place.later m).later n = place.later (m + n) :=
  congrArg (Place.mk _ _) (Nat.add_assoc _ m n)

namespace ClockSession

variable {τ : Type}

/-- The place that a session has reached. -/
def place (session : ClockSession τ) : Place where
  inFrame := session.clock.inFrame
  pace := session.clock.pace
  frames := session.clock.record.frames

/-- The level of the events that the host keeps. -/
def threshold (session : ClockSession τ) : Option Level :=
  session.host.journal.threshold

theorem threshold_noted (session : ClockSession τ) (event : Event) :
    (session.noted event).threshold = session.threshold :=
  session.host.journal.threshold_note event

/-- The place of the calls in frame `m` of a run that begins with this session. -/
def framePlace (session : ClockSession τ) (m : Nat) : Place :=
  { session.place.later m with inFrame := true }

/-- The place of the call that such a run makes after `j` others. -/
def callPlace (session : ClockSession τ) (j : Nat) : Place :=
  session.framePlace (j / session.clock.pace.calls)

theorem callPlace_of_lt (session : ClockSession τ) (m : Nat) {n : Nat}
    (h : n < session.clock.pace.calls) :
    session.callPlace (m * session.clock.pace.calls + n) = session.framePlace m := by
  unfold callPlace
  rw [Nat.mul_comm, Nat.mul_add_div session.clock.pace.calls_pos, Nat.div_eq_of_lt h, Nat.add_zero]

variable [TimeSource τ]

/-- Leaving frame `m` of a run that began with an idle clock. -/
theorem place_left {start session : ClockSession τ} {m : Nat} (hidle : start.clock.inFrame = false)
    (h : session.place = start.framePlace m) (began : Instant) :
    (session.left began).place = start.place.later (m + 1) := by
  have hleft : (session.left began).place =
      { session.place with inFrame := false, frames := session.place.frames + 1 } := rfl
  rw [hleft, h, ← hidle]
  rfl

theorem threshold_left (session : ClockSession τ) (began : Instant) :
    (session.left began).threshold = session.threshold :=
  threshold_noted _ _

theorem threshold_started (session : ClockSession τ) :
    session.started.threshold = session.threshold :=
  threshold_noted _ _

theorem place_woken (session : ClockSession τ) (grid : FrameGrid) :
    (session.woken grid).place = session.place := by
  unfold place
  rw [session.clock_woken]
  rfl

theorem threshold_woken (session : ClockSession τ) (grid : FrameGrid) :
    (session.woken grid).threshold = session.threshold := by
  have hawake : ((session.awaited grid).2.onClock (·.wake (session.awaited grid).1.2
      (session.awaited grid).1.1)).threshold = session.threshold :=
    congrArg Journal.threshold (Host.journal_wait grid session.host)
  unfold woken
  by_cases hmissed : (session.awaited grid).1.1 ≠ 0
  · rw [if_pos hmissed, threshold_noted, hawake]
  · rw [if_neg hmissed, hawake]

end ClockSession

namespace Clock

/-! ## Stages of a run -/

/-- A clock whose handler has made `j` calls and stops it in the `k`-th. -/
structure Standing (k j : Nat) (clock : Clock) : Prop where
  running : j < k → clock.running = true ∧ ∃ grid, clock.grid = some grid
  stopped : k ≤ j → clock.running = false

/-- A run whose handler has made `j` calls and has come to a place. `After j` says what the handler
has made of its state, on a host that keeps a given level. -/
structure Stage {τ σ : Type} (k : Nat) (After : Nat → σ → Option Level → Prop) (j : Nat)
    (place : Place) (state : σ) (session : ClockSession τ) : Prop where
  after : After j state session.threshold
  standing : Standing k j session.clock
  place : session.place = place

/-- Each call that a run of the handler makes leads to the next stage at the same place. -/
def Stops {τ σ : Type} [TimeSource τ] (handler : σ → ClockM τ σ) (initial : σ)
    (start : ClockSession τ) (k : Nat) (After : Nat → σ → Option Level → Prop) : Prop :=
  ∀ (j : Nat) (state : σ) (session : ClockSession τ),
    ReachesCall handler initial start j state session →
    Stage k After j (start.callPlace j) state session →
    ∃ (state' : σ) (session' : ClockSession τ), handler state session = some (state', session') ∧
      Stage k After (j + 1) (start.callPlace j) state' session'

variable {τ σ : Type} {handler : σ → ClockM τ σ} {k : Nat}

section Stages

variable [TimeSource τ] {After : Nat → σ → Option Level → Prop} {initial : σ}
  {start : ClockSession τ} {m : Nat} {state : σ} {session : ClockSession τ}

/-- The calls of a frame, up to the last one. -/
theorem repeatCalls_of_stops (h : Stops handler initial start k After)
    (hframe : ReachesFrame handler initial start m state session)
    (hstage : Stage k After (m * start.clock.pace.calls) (start.framePlace m) state
      session.entered.2) (n : Nat) (hn : n ≤ start.clock.pace.calls) :
    ∃ (state' : σ) (session' : ClockSession τ),
      repeatCalls handler n state session.entered.2 = some (state', session') ∧
      Stage k After (m * start.clock.pace.calls + n) (start.framePlace m) state' session' := by
  induction n with
  | zero => exact ⟨state, session.entered.2, rfl, hstage⟩
  | succ n ih =>
    obtain ⟨state₁, session₁, hcalls, hstage₁⟩ := ih (Nat.le_of_succ_le hn)
    have hcall := h _ state₁ session₁ (.inFrame hframe hn hcalls)
    rw [start.callPlace_of_lt m hn] at hcall
    obtain ⟨state₂, session₂, hlast, hstage₂⟩ := hcall hstage₁
    refine ⟨state₂, session₂, ?_, hstage₂⟩
    rw [repeatCalls_succ_last, hcalls]
    exact hlast

/-- A frame makes as many calls as it holds, whether or not the clock is stopped in one. -/
theorem frame_of_stops (h : Stops handler initial start k After)
    (hframe : ReachesFrame handler initial start m state session)
    (hstage : Stage k After (m * start.clock.pace.calls) (start.place.later m) state session)
    (hidle : start.clock.inFrame = false) :
    ∃ (state' : σ) (session' : ClockSession τ),
      frame handler state session = some ((true, state'), session') ∧
      Stage k After ((m + 1) * start.clock.pace.calls) (start.place.later (m + 1)) state'
        session' := by
  obtain ⟨hafter, hstanding, hplace⟩ := hstage
  have hentered : Stage k After (m * start.clock.pace.calls) (start.framePlace m) state
      session.entered.2 :=
    ⟨hafter, ⟨hstanding.running, hstanding.stopped⟩,
      congrArg (fun place : Place => { place with inFrame := true }) hplace⟩
  obtain ⟨state', session', hcalls, hafter', hstanding', hplace'⟩ :=
    repeatCalls_of_stops h hframe hentered start.clock.pace.calls (Nat.le_refl _)
  rw [← Nat.succ_mul] at hafter' hstanding'
  refine ⟨state', session'.left session.entered.1, ?_, ?_,
    ⟨hstanding'.running, hstanding'.stopped⟩, ?_⟩
  · have hpace : session.clock.pace = start.clock.pace := congrArg Place.pace hplace
    have hinFrame : session.clock.inFrame = false := (congrArg Place.inFrame hplace).trans hidle
    rw [frame_of_idle _ _ hinFrame, hpace]
    exact congrArg (Option.map _) hcalls
  · rw [ClockSession.threshold_left]
    exact hafter'
  · exact ClockSession.place_left hidle hplace' _

/-- A running clock comes to its next frame. -/
theorem Stage.woken {j : Nat} {place : Place} (h : Stage k After j place state session)
    (hj : j < k) (grid : FrameGrid) : Stage k After j place state (session.woken grid) := by
  obtain ⟨hafter, hstanding, hplace⟩ := h
  refine ⟨?_, ?_, (session.place_woken grid).trans hplace⟩
  · rw [session.threshold_woken]
    exact hafter
  · rw [ClockSession.clock_woken]
    exact ⟨fun _ => ⟨(hstanding.running hj).1, _, rfl⟩, hstanding.stopped⟩

/-! ## Runs -/

/-- **Ticks go on until the frame in which the clock is stopped**, `r` frames after frame `m`. -/
theorem tickUntilStopped_of_stops (h : Stops handler initial start k After)
    (hidle : start.clock.inFrame = false) (r : Nat) :
    ∀ {limit m : Nat} {state₀ state : σ} {session₀ session : ClockSession τ}, r ≤ limit →
      0 < limit → start.clock.pace.framesFor k = m + 1 + r →
      ReachesFrame handler initial start m state₀ session₀ →
      frame handler state₀ session₀ = some ((true, state), session) →
      Stage k After ((m + 1) * start.clock.pace.calls) (start.place.later (m + 1)) state session →
      ∃ (state' : σ) (session' : ClockSession τ),
        tickUntilStopped handler limit state session = some ((.ok (), state'), session') ∧
        Stage k After (start.clock.pace.framesFor k * start.clock.pace.calls)
          (start.place.later (start.clock.pace.framesFor k)) state' session' := by
  have hfit := start.clock.pace.le_framesFor_mul k
  induction r with
  | zero =>
    intro limit m state₀ state session₀ session _ hlimit hm _ _ hstage
    rw [← Nat.add_zero (m + 1), ← hm] at hstage
    obtain ⟨limit, rfl⟩ := Nat.exists_eq_add_one.mpr hlimit
    refine ⟨state, session, ?_, hstage⟩
    rw [tickUntilStopped_succ, tick_of_stopped _ _ (hstage.standing.stopped hfit)]
    rfl
  | succ r ih =>
    intro limit m state₀ state session₀ session hr hlimit hm hreached hframe hstage
    obtain ⟨limit, rfl⟩ := Nat.exists_eq_add_one.mpr hlimit
    have hj : (m + 1) * start.clock.pace.calls < k :=
      start.clock.pace.mul_lt_of_lt_framesFor (by omega)
    obtain ⟨hrunning, grid, hgrid⟩ := hstage.standing.running hj
    have hnext := ReachesFrame.next hreached hframe hrunning hgrid
    obtain ⟨state₁, session₁, hframe₁, hstage₁⟩ :=
      frame_of_stops h hnext (hstage.woken hj grid) hidle
    rw [tickUntilStopped_succ, tick_of_running _ _ hrunning hgrid, hframe₁]
    cases r with
    | zero =>
      -- The tick was the last one: its frame has stopped the clock.
      rw [← hm] at hstage₁
      refine ⟨state₁, session₁, ?_, hstage₁⟩
      rw [Option.map_some, hstage₁.standing.stopped hfit]
      rfl
    | succ r =>
      obtain ⟨state₂, session₂, hticks, hstage₂⟩ :=
        ih (Nat.le_of_succ_le_succ hr) (by omega) (by omega) hnext hframe₁ hstage₁
      have hgoing : (m + 1 + 1) * start.clock.pace.calls < k :=
        start.clock.pace.mul_lt_of_lt_framesFor (by omega)
      refine ⟨state₂, session₂, ?_, hstage₂⟩
      rw [Option.map_some, (hstage₁.standing.running hgoing).1]
      exact hticks

/-- **A run of a handler that stops the clock in its `k`-th call** takes the frames that hold `k`
calls, and leaves the clock stopped. -/
theorem run_of_stops (h : Stops handler initial start k After) (hk : 0 < k) {limit : Nat}
    (hafter : After 0 initial start.threshold) (hstopped : start.clock.running = false)
    (hidle : start.clock.inFrame = false) (hlimit : start.clock.pace.framesFor k ≤ limit) :
    ∃ (state' : σ) (session' : ClockSession τ),
      run limit handler initial start = some ((.ok (), state'), session') ∧
      After (start.clock.pace.framesFor k * start.clock.pace.calls) state' session'.threshold ∧
      session'.clock.running = false ∧
      session'.place = start.place.later (start.clock.pace.framesFor k) := by
  obtain ⟨r, hr⟩ := Nat.exists_eq_add_one.mpr (start.clock.pace.framesFor_pos hk)
  have hstarted : Stage k After (0 * start.clock.pace.calls) (start.place.later 0) initial
      start.started := by
    rw [Nat.zero_mul]
    refine ⟨?_, ⟨fun _ => ⟨rfl, _, rfl⟩, fun hzero => absurd hzero (Nat.not_le.mpr hk)⟩, rfl⟩
    rw [start.threshold_started]
    exact hafter
  obtain ⟨state₁, session₁, hframe, hstage₁⟩ := frame_of_stops h .first hstarted hidle
  rw [hr] at hlimit
  obtain ⟨state₂, session₂, hticks, hstage₂⟩ :=
    tickUntilStopped_of_stops h hidle r (Nat.le_of_succ_le hlimit) (Nat.zero_lt_of_lt hlimit)
      (by omega) .first hframe hstage₁
  refine ⟨state₂, session₂, ?_, hstage₂.after,
    hstage₂.standing.stopped (start.clock.pace.le_framesFor_mul k), hstage₂.place⟩
  rw [run_eq, start_of_stopped _ _ hstopped, hframe]
  exact hticks

end Stages

end Clock

/-! ## Handlers that do nothing else -/

/-- What no call of a handler may change if it is to stop the clock and to do nothing else: the
frame it is called in, the pace, the frames finished, and what the host keeps. -/
structure Situation where
  inFrame : Bool
  pace : Pace
  frames : Nat
  threshold : Option Level

namespace ClockSession

variable {τ : Type}

/-- The situation that a session is in. -/
def situation (session : ClockSession τ) : Situation where
  inFrame := session.clock.inFrame
  pace := session.clock.pace
  frames := session.clock.record.frames
  threshold := session.host.journal.threshold

theorem situation_onto {session : ClockSession τ} {host : Host τ}
    (h : host.journal.threshold = session.host.journal.threshold) :
    (session.onto host).situation = session.situation :=
  congrArg (Situation.mk _ _ _) h

theorem situation_stopped (session : ClockSession τ) :
    session.stopped.situation = session.situation :=
  congrArg (Situation.mk _ _ _) (session.host.journal.threshold_note _)

/-- Sessions in one situation are at one place. -/
theorem place_of_situation {session session' : ClockSession τ}
    (h : session'.situation = session.situation) : session'.place = session.place :=
  congrArg (fun situation => Place.mk situation.inFrame situation.pace situation.frames) h

end ClockSession

namespace Clock

/-- The handler stops the clock in its `k`-th call and does nothing else with it, on a host that
keeps a given level. `After j` says what it has made of its state in `j` calls. -/
def StopsAt {τ σ : Type} (handler : σ → ClockM τ σ) (k : Nat) (threshold : Option Level)
    (After : Nat → σ → Prop) : Prop :=
  ∀ (j : Nat) (state : σ) (session : ClockSession τ), After j state → Standing k j session.clock →
    session.situation.threshold = threshold →
    ∃ (state' : σ) (session' : ClockSession τ), handler state session = some (state', session') ∧
      After (j + 1) state' ∧ Standing k (j + 1) session'.clock ∧
      session'.situation = session.situation

variable {τ σ : Type} [TimeSource τ] {handler : σ → ClockM τ σ} {k : Nat}
  {threshold : Option Level} {After : Nat → σ → Prop}

theorem StopsAt.stops (h : StopsAt handler k threshold After) (initial : σ)
    (start : ClockSession τ) :
    Stops handler initial start k fun j state level => After j state ∧ level = threshold := by
  intro j state session _ hstage
  obtain ⟨⟨hafter, hthreshold⟩, hstanding, hplace⟩ := hstage
  obtain ⟨state', session', hcall, hafter', hstanding', hsituation⟩ :=
    h j state session hafter hstanding hthreshold
  have hthreshold' : session'.threshold = session.threshold :=
    congrArg Situation.threshold hsituation
  exact ⟨state', session', hcall, ⟨hafter', hthreshold'.trans hthreshold⟩, hstanding',
    (ClockSession.place_of_situation hsituation).trans hplace⟩

/-- **A run of a handler that stops the clock in its `k`-th call** takes the frames that hold `k`
calls, and leaves the clock stopped and idle. -/
theorem run_of_stopsAt (h : StopsAt handler k threshold After) (hk : 0 < k) {limit : Nat}
    (state : σ) (session : ClockSession τ) (hafter : After 0 state)
    (hstopped : session.clock.running = false) (hidle : session.clock.inFrame = false)
    (hthreshold : session.host.journal.threshold = threshold)
    (hlimit : session.clock.pace.framesFor k ≤ limit) :
    ∃ (state' : σ) (session' : ClockSession τ),
      run limit handler state session = some ((.ok (), state'), session') ∧
      After (session.clock.pace.framesFor k * session.clock.pace.calls) state' ∧
      session'.clock.running = false ∧ session'.clock.inFrame = false ∧
      session'.clock.record.frames =
        session.clock.record.frames + session.clock.pace.framesFor k ∧
      session'.host.journal.threshold = threshold := by
  obtain ⟨state', session', hrun, ⟨hafter', hthreshold'⟩, hrunning, hplace⟩ :=
    run_of_stops (h.stops state session) hk ⟨hafter, hthreshold⟩ hstopped hidle hlimit
  exact ⟨state', session', hrun, hafter', hrunning, (congrArg Place.inFrame hplace).trans hidle,
    congrArg Place.frames hplace, hthreshold'⟩

end Clock

end Mos6502

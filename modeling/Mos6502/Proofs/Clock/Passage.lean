import Mos6502.Proofs.Clock.Deadline

/-!
# While time passes

A clock reads the time and sleeps, and if neither turns time back, no call of the clock does. So
what holds of the state of a handler at some time, and goes on holding as time passes, holds after a
run if each call of the handler upholds it.

**Time that only passes** (`PassingTime`). Less is asked of it than of lawful time: a sleep may be
too short.

Main result: `Upholds.run`.
-/

namespace Mos6502

/-! ## Time that only passes -/

/-- A source of time that does not run backwards. -/
class PassingTime (τ : Type) [TimeSource τ] : Prop where
  le_now (time : τ) :
    (TimeSource.now.run time).1 ≤ (TimeSource.now.run (TimeSource.now.run time).2).1
  le_sleep (time : τ) (span : Duration) :
    (TimeSource.now.run time).1 ≤ (TimeSource.now.run ((TimeSource.sleep span).run time).2).1

instance {τ : Type} [TimeSource τ] [LawfulTime τ] : PassingTime τ where
  le_now := LawfulTime.le_now
  le_sleep time span := Nat.le_trans (Nat.le_add_right _ _) (LawfulTime.le_sleep time span)

variable {τ σ : Type} [TimeSource τ]

/-! ## The calls of the clock -/

section Calls

variable [PassingTime τ]

theorem Host.reading_le_asked (host : Host τ) : host.reading ≤ (Host.now.run host).2.reading :=
  PassingTime.le_now host.time

theorem FrameGrid.reading_le_wait (grid : FrameGrid) (host : Host τ) :
    host.reading ≤ (grid.wait.run host).2.reading := by
  show host.reading ≤ (StateT.run (if host.reading < grid.next then _ else _ :
    StateM (Host τ) (UInt64 × FrameGrid)) (Host.now.run host).2).2.reading
  have hentered := host.reading_le_asked
  by_cases h : host.reading < grid.next
  · rw [if_pos h]
    calc host.reading ≤ (Host.now.run host).2.reading := hentered
      _ ≤ ((Host.sleep (grid.next - host.reading)).run (Host.now.run host).2).2.reading :=
          PassingTime.le_sleep _ _
      _ ≤ _ := Host.reading_le_asked _
  · rw [if_neg h]
    exact Nat.le_trans hentered (Host.reading_le_asked _)

namespace ClockSession

variable (session : ClockSession τ)

theorem reading_le_entered : session.host.reading ≤ session.entered.2.host.reading :=
  session.host.reading_le_asked

theorem reading_le_left (began : Instant) :
    session.host.reading ≤ (session.left began).host.reading :=
  session.host.reading_le_asked

theorem reading_le_started : session.host.reading ≤ session.started.host.reading :=
  session.host.reading_le_asked

theorem reading_le_woken (grid : FrameGrid) :
    session.host.reading ≤ (session.woken grid).host.reading := by
  rw [reading_woken]
  exact grid.reading_le_wait session.host

end ClockSession

end Calls

/-! ## Handlers -/

namespace Clock

/-- What holds of a state at some time holds at any later time, and each call of the handler upholds
it. -/
structure Upholds (holds : σ → Instant → Prop) (handler : σ → ClockM τ σ) : Prop where
  later {state : σ} {now now' : Instant} (h : holds state now) (hle : now ≤ now') :
    holds state now'
  call {state state' : σ} {session session' : ClockSession τ}
    (h : holds state session.host.reading)
    (hcall : handler state session = some (state', session')) :
    holds state' session'.host.reading

namespace Upholds

variable {holds : σ → Instant → Prop} {handler : σ → ClockM τ σ}

theorem repeatCalls (h : Upholds holds handler) (n : Nat) :
    Upholds holds (Clock.repeatCalls handler n) := by
  refine ⟨h.later, ?_⟩
  induction n with
  | zero =>
    intro state state' session session' hstate hcalls
    cases hcalls
    exact hstate
  | succ n ih =>
    intro state state' session session' hstate hcalls
    rw [repeatCalls_succ] at hcalls
    obtain ⟨⟨state₁, session₁⟩, hcall, hrest⟩ := Option.bind_eq_some_iff.mp hcalls
    exact ih (h.call hstate hcall) hrest

variable [PassingTime τ] {state state' : σ} {session session' : ClockSession τ}

theorem frame (h : Upholds holds handler) (hstate : holds state session.host.reading) {ran : Bool}
    (hframe : Clock.frame handler state session = some ((ran, state'), session')) :
    holds state' session'.host.reading := by
  cases hinFrame : session.clock.inFrame with
  | true =>
    rw [frame_of_inFrame _ _ hinFrame] at hframe
    cases hframe
    exact hstate
  | false =>
    rw [frame_of_idle _ _ hinFrame] at hframe
    obtain ⟨⟨state₁, session₁⟩, hcalls, hleft⟩ := Option.map_eq_some_iff.mp hframe
    cases hleft
    have hentered := h.later hstate session.reading_le_entered
    exact h.later ((h.repeatCalls _).call hentered hcalls) (session₁.reading_le_left _)

theorem start (h : Upholds holds handler) (hstate : holds state session.host.reading)
    {started : Bool}
    (hstart : Clock.start handler state session = some ((started, state'), session')) :
    holds state' session'.host.reading := by
  cases hrunning : session.clock.running with
  | true =>
    rw [start_of_running _ _ hrunning] at hstart
    cases hstart
    exact hstate
  | false =>
    rw [start_of_stopped _ _ hrunning] at hstart
    obtain ⟨⟨⟨ran, state₁⟩, session₁⟩, hframe, hended⟩ := Option.map_eq_some_iff.mp hstart
    cases hended
    exact h.frame (h.later hstate session.reading_le_started) hframe

theorem tick (h : Upholds holds handler) (hstate : holds state session.host.reading)
    {result : Except ClockFault Bool}
    (htick : Clock.tick handler state session = some ((result, state'), session')) :
    holds state' session'.host.reading := by
  cases hgrid : session.clock.awaitedGrid with
  | none =>
    obtain ⟨_, -, hunchanged⟩ := tick_of_awaitedGrid_none handler state hgrid
    rw [hunchanged] at htick
    cases htick
    exact hstate
  | some grid =>
    obtain ⟨hrunning, hgrid⟩ := of_awaitedGrid_eq_some hgrid
    rw [tick_of_running _ _ hrunning hgrid] at htick
    obtain ⟨⟨⟨ran, state₁⟩, session₁⟩, hframe, hended⟩ := Option.map_eq_some_iff.mp htick
    cases hended
    exact h.frame (h.later hstate (session.reading_le_woken grid)) hframe

theorem tickUntilStopped (h : Upholds holds handler) (limit : Nat)
    {result : Except ClockFault Unit} :
    ∀ {state : σ} {session : ClockSession τ}, holds state session.host.reading →
      Clock.tickUntilStopped handler limit state session = some ((result, state'), session') →
      holds state' session'.host.reading := by
  induction limit with
  | zero =>
    intro state session _ hticks
    cases hticks
  | succ limit ih =>
    intro state session hstate hticks
    rw [tickUntilStopped_succ] at hticks
    obtain ⟨⟨⟨ticked, state₁⟩, session₁⟩, htick, hrest⟩ := Option.bind_eq_some_iff.mp hticks
    have hstate₁ := h.tick hstate htick
    cases ticked with
    | error fault =>
      cases hrest
      exact hstate₁
    | ok running =>
      cases running with
      | true => exact ih hstate₁ hrest
      | false =>
        cases hrest
        exact hstate₁

/-- **A run upholds what each call of its handler upholds.** -/
theorem run (h : Upholds holds handler) (hstate : holds state session.host.reading) {limit : Nat}
    {result : Except ClockFault Unit}
    (hrun : Clock.run limit handler state session = some ((result, state'), session')) :
    holds state' session'.host.reading := by
  rw [run_eq] at hrun
  obtain ⟨⟨⟨started, state₁⟩, session₁⟩, hstart, hrest⟩ := Option.bind_eq_some_iff.mp hrun
  have hstate₁ := h.start hstate hstart
  cases started with
  | true => exact h.tickUntilStopped limit hstate₁ hrest
  | false =>
    cases hrest
    exact hstate₁

end Upholds

end Clock

end Mos6502

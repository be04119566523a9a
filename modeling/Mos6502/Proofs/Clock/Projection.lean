import Mos6502.Proofs.Clock.Calls

/-!
# Handlers that keep more in their state

A handler may keep more in its state than another one and do the same otherwise. If each call of it
is a call of the other once the surplus is forgotten, so is every call of the clock with it.

**Main result** (`Projects.run`). A run of the fuller handler, with the surplus forgotten, is a run
of the other handler. So what the surplus tells about the one is true of the other.
-/

namespace Mos6502.Clock

variable {τ σ σ' : Type}

/-- A call of the fuller handler is a call of the other handler, with the state projected. -/
def Projects (project : σ' → σ) (fuller : σ' → ClockM τ σ') (handler : σ → ClockM τ σ) : Prop :=
  ∀ (state : σ') (session : ClockSession τ),
    (fuller state session).map (Prod.map project id) = handler (project state) session

namespace Projects

variable {project : σ' → σ} {fuller : σ' → ClockM τ σ'} {handler : σ → ClockM τ σ}

theorem repeatCalls (h : Projects project fuller handler) (n : Nat) :
    Projects project (Clock.repeatCalls fuller n) (Clock.repeatCalls handler n) := by
  induction n with
  | zero => exact fun _ _ => rfl
  | succ n ih =>
    intro state session
    rw [repeatCalls_succ, repeatCalls_succ, ← h state session]
    cases fuller state session with
    | none => rfl
    | some p => exact ih p.1 p.2

variable [TimeSource τ]

theorem frame (h : Projects project fuller handler) (state : σ') (session : ClockSession τ) :
    (Clock.frame fuller state session).map (Prod.map (Prod.map id project) id) =
      Clock.frame handler (project state) session := by
  cases hinFrame : session.clock.inFrame with
  | true =>
    rw [frame_of_inFrame _ _ hinFrame, frame_of_inFrame _ _ hinFrame]
    rfl
  | false =>
    rw [frame_of_idle _ _ hinFrame, frame_of_idle _ _ hinFrame, ← h.repeatCalls, Option.map_map,
      Option.map_map]
    rfl

theorem start (h : Projects project fuller handler) (state : σ') (session : ClockSession τ) :
    (Clock.start fuller state session).map (Prod.map (Prod.map id project) id) =
      Clock.start handler (project state) session := by
  cases hrunning : session.clock.running with
  | true =>
    rw [start_of_running _ _ hrunning, start_of_running _ _ hrunning]
    rfl
  | false =>
    rw [start_of_stopped _ _ hrunning, start_of_stopped _ _ hrunning, ← h.frame, Option.map_map,
      Option.map_map]
    rfl

theorem tick (h : Projects project fuller handler) (state : σ') (session : ClockSession τ) :
    (Clock.tick fuller state session).map (Prod.map (Prod.map id project) id) =
      Clock.tick handler (project state) session := by
  cases hrunning : session.clock.running with
  | false =>
    rw [tick_of_stopped _ _ hrunning, tick_of_stopped _ _ hrunning]
    rfl
  | true =>
    cases hgrid : session.clock.grid with
    | none =>
      rw [tick_of_unarmed _ _ hrunning hgrid, tick_of_unarmed _ _ hrunning hgrid]
      rfl
    | some grid =>
      rw [tick_of_running _ _ hrunning hgrid, tick_of_running _ _ hrunning hgrid, ← h.frame,
        Option.map_map, Option.map_map]
      rfl

theorem tickUntilStopped (h : Projects project fuller handler) (limit : Nat) :
    ∀ (state : σ') (session : ClockSession τ),
      (Clock.tickUntilStopped fuller limit state session).map (Prod.map (Prod.map id project) id) =
        Clock.tickUntilStopped handler limit (project state) session := by
  induction limit with
  | zero => exact fun _ _ => rfl
  | succ limit ih =>
    intro state session
    rw [tickUntilStopped_succ, tickUntilStopped_succ, ← h.tick]
    cases Clock.tick fuller state session with
    | none => rfl
    | some p =>
      obtain ⟨⟨ticked, state'⟩, session'⟩ := p
      cases ticked with
      | error fault => rfl
      | ok running =>
        cases running with
        | true => exact ih state' session'
        | false => rfl

/-- **A run of the fuller handler is a run of the other**, with the state projected. -/
theorem run (h : Projects project fuller handler) (limit : Nat) (state : σ')
    (session : ClockSession τ) :
    (Clock.run limit fuller state session).map (Prod.map (Prod.map id project) id) =
      Clock.run limit handler (project state) session := by
  rw [run_eq, run_eq, ← h.start]
  cases Clock.start fuller state session with
  | none => rfl
  | some p =>
    obtain ⟨⟨started, state'⟩, session'⟩ := p
    cases started with
    | true => exact h.tickUntilStopped limit state' session'
    | false => rfl

end Projects

end Mos6502.Clock

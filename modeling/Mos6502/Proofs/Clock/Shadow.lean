import Mos6502.Proofs.Clock.Calls

/-!
# Handlers in the shadow of another

A handler shadows another one if it does the same to every session while it keeps a state of its
own. What the two states have to do with each other may depend on whether the clock is running. If
each call of the handlers keeps the states so related, every call of the clock with them does too,
since the clock's own doings neither touch the states nor stop the clock.

With a shadow that notes more than the handler itself does, what has happened can be told from its
notes.

**Main result** (`Shadows.run`). A run of a stopped clock ends with related states, and unless it
ends with a fault, it ends with the clock stopped.
-/

namespace Mos6502.Clock

variable {τ σ σ' : Type}

/-- From related states the second handler does to a session what the first one does, and the states
are related afterwards. A relation is told whether the clock is running. -/
def Shadows (related : σ → σ' → Bool → Prop) (handler : σ → ClockM τ σ)
    (shadow : σ' → ClockM τ σ') : Prop :=
  ∀ (state state₁ : σ) (state' : σ') (session session₁ : ClockSession τ),
    related state state' session.clock.running → handler state session = some (state₁, session₁) →
      ∃ state₁' : σ', shadow state' session = some (state₁', session₁) ∧
        related state₁ state₁' session₁.clock.running

variable {related : σ → σ' → Bool → Prop} {handler : σ → ClockM τ σ} {shadow : σ' → ClockM τ σ'}

namespace Shadows

theorem repeatCalls (h : Shadows related handler shadow) (n : Nat) :
    Shadows related (Clock.repeatCalls handler n) (Clock.repeatCalls shadow n) := by
  induction n with
  | zero =>
    intro state state₁ state' session session₁ hrelated hcalls
    cases hcalls
    exact ⟨state', rfl, hrelated⟩
  | succ n ih =>
    intro state state₁ state' session session₁ hrelated hcalls
    rw [repeatCalls_succ] at hcalls
    obtain ⟨⟨state₂, session₂⟩, hcall, hrest⟩ := Option.bind_eq_some_iff.mp hcalls
    obtain ⟨state₂', hcall', hrelated₂⟩ := h state state₂ state' session session₂ hrelated hcall
    obtain ⟨state₁', hrest', hrelated₁⟩ := ih _ _ _ session₂ session₁ hrelated₂ hrest
    refine ⟨state₁', ?_, hrelated₁⟩
    rw [repeatCalls_succ, hcall']
    exact hrest'

variable [TimeSource τ] {state state₁ : σ} {state' : σ'} {session session₁ : ClockSession τ}

theorem frame (h : Shadows related handler shadow)
    (hrelated : related state state' session.clock.running) {ran : Bool}
    (hframe : Clock.frame handler state session = some ((ran, state₁), session₁)) :
    ∃ state₁' : σ', Clock.frame shadow state' session = some ((ran, state₁'), session₁) ∧
      related state₁ state₁' session₁.clock.running := by
  cases hinFrame : session.clock.inFrame with
  | true =>
    rw [frame_of_inFrame _ _ hinFrame] at hframe
    cases hframe
    exact ⟨state', frame_of_inFrame _ _ hinFrame, hrelated⟩
  | false =>
    rw [frame_of_idle _ _ hinFrame] at hframe
    obtain ⟨⟨state₂, session₂⟩, hcalls, hleft⟩ := Option.map_eq_some_iff.mp hframe
    cases hleft
    obtain ⟨state₁', hcalls', hrelated₁⟩ :=
      h.repeatCalls _ _ _ _ session.entered.2 session₂ hrelated hcalls
    refine ⟨state₁', ?_, hrelated₁⟩
    rw [frame_of_idle _ _ hinFrame, hcalls']
    rfl

theorem start (h : Shadows related handler shadow) (hstopped : session.clock.running = false)
    (hrelated : related state state' true) {started : Bool}
    (hstart : Clock.start handler state session = some ((started, state₁), session₁)) :
    started = true ∧ ∃ state₁' : σ',
      Clock.start shadow state' session = some ((started, state₁'), session₁) ∧
      related state₁ state₁' session₁.clock.running := by
  rw [start_of_stopped _ _ hstopped] at hstart
  obtain ⟨⟨⟨ran, state₂⟩, session₂⟩, hframe, hended⟩ := Option.map_eq_some_iff.mp hstart
  cases hended
  have hrelated' : related state state' session.started.clock.running := hrelated
  obtain ⟨state₁', hframe', hrelated₁⟩ := h.frame hrelated' hframe
  refine ⟨rfl, state₁', ?_, hrelated₁⟩
  rw [start_of_stopped _ _ hstopped, hframe']
  rfl

theorem tick (h : Shadows related handler shadow)
    (hrelated : related state state' session.clock.running) {result : Except ClockFault Bool}
    (htick : Clock.tick handler state session = some ((result, state₁), session₁)) :
    (∀ running, result = .ok running → session₁.clock.running = running) ∧
      ∃ state₁' : σ', Clock.tick shadow state' session = some ((result, state₁'), session₁) ∧
        related state₁ state₁' session₁.clock.running := by
  cases hrunning : session.clock.running with
  | false =>
    rw [tick_of_stopped _ _ hrunning] at htick
    cases htick
    refine ⟨?_, state', tick_of_stopped _ _ hrunning, hrelated⟩
    intro running hresult
    cases hresult
    exact hrunning
  | true =>
    cases hgrid : session.clock.grid with
    | none =>
      rw [tick_of_unarmed _ _ hrunning hgrid] at htick
      cases htick
      exact ⟨nofun, state', tick_of_unarmed _ _ hrunning hgrid, hrelated⟩
    | some grid =>
      rw [tick_of_running _ _ hrunning hgrid] at htick
      obtain ⟨⟨⟨ran, state₂⟩, session₂⟩, hframe, hended⟩ := Option.map_eq_some_iff.mp htick
      cases hended
      have hrelated' : related state state' (session.woken grid).clock.running := by
        rw [session.clock_woken]
        exact hrelated
      obtain ⟨state₁', hframe', hrelated₁⟩ := h.frame hrelated' hframe
      refine ⟨fun running hresult => Except.ok.inj hresult, state₁', ?_, hrelated₁⟩
      rw [tick_of_running _ _ hrunning hgrid, hframe']
      rfl

theorem tickUntilStopped (h : Shadows related handler shadow) (limit : Nat)
    {result : Except ClockFault Unit} :
    ∀ {state : σ} {state' : σ'} {session : ClockSession τ},
      related state state' session.clock.running →
      Clock.tickUntilStopped handler limit state session = some ((result, state₁), session₁) →
      (result = .ok () → session₁.clock.running = false) ∧
        ∃ state₁' : σ', Clock.tickUntilStopped shadow limit state' session =
          some ((result, state₁'), session₁) ∧ related state₁ state₁' session₁.clock.running := by
  induction limit with
  | zero =>
    intro state state' session _ hticks
    cases hticks
  | succ limit ih =>
    intro state state' session hrelated hticks
    rw [tickUntilStopped_succ] at hticks
    obtain ⟨⟨⟨ticked, state₂⟩, session₂⟩, htick, hrest⟩ := Option.bind_eq_some_iff.mp hticks
    obtain ⟨hrunning, state₂', htick', hrelated₂⟩ := h.tick hrelated htick
    rw [tickUntilStopped_succ, htick']
    cases ticked with
    | error fault =>
      cases hrest
      exact ⟨nofun, state₂', rfl, hrelated₂⟩
    | ok running =>
      cases running with
      | true => exact ih hrelated₂ hrest
      | false =>
        cases hrest
        exact ⟨fun _ => hrunning false rfl, state₂', rfl, hrelated₂⟩

/-- **A run is shadowed**, and comes to its end when the clock is stopped. -/
theorem run (h : Shadows related handler shadow) (hstopped : session.clock.running = false)
    (hrelated : related state state' true) {limit : Nat} {result : Except ClockFault Unit}
    (hrun : Clock.run limit handler state session = some ((result, state₁), session₁)) :
    (result = .ok () → session₁.clock.running = false) ∧
      ∃ state₁' : σ', Clock.run limit shadow state' session = some ((result, state₁'), session₁) ∧
        related state₁ state₁' session₁.clock.running := by
  rw [run_eq] at hrun
  obtain ⟨⟨⟨started, state₂⟩, session₂⟩, hstart, hrest⟩ := Option.bind_eq_some_iff.mp hrun
  obtain ⟨rfl, state₂', hstart', hrelated₂⟩ := h.start hstopped hrelated hstart
  rw [run_eq, hstart']
  exact h.tickUntilStopped limit hrelated₂ hrest

end Shadows

/-- Each call of the handler keeps what holds of its state. -/
def Keeps (keeps : σ → Prop) (handler : σ → ClockM τ σ) : Prop :=
  ∀ (state state₁ : σ) (session session₁ : ClockSession τ), keeps state →
    handler state session = some (state₁, session₁) → keeps state₁

/-- **What each call of a handler keeps, a run keeps**, whether its clock was running or not. -/
theorem Keeps.run [TimeSource τ] {keeps : σ → Prop} {handler : σ → ClockM τ σ}
    (h : Keeps keeps handler) {state state₁ : σ} {session session₁ : ClockSession τ}
    (hstate : keeps state) {limit : Nat} {result : Except ClockFault Unit}
    (hrun : Clock.run limit handler state session = some ((result, state₁), session₁)) :
    keeps state₁ := by
  cases hrunning : session.clock.running with
  | true =>
    rw [run_eq, start_of_running _ _ hrunning] at hrun
    cases hrun
    exact hstate
  | false =>
    -- The handler is its own shadow.
    have hself : Shadows (fun state state' _ => state = state' ∧ keeps state) handler handler := by
      rintro state state₁ _ session session₁ ⟨rfl, hkept⟩ hcall
      exact ⟨state₁, hcall, rfl, h state state₁ session session₁ hkept hcall⟩
    obtain ⟨-, _, -, -, hkept⟩ := hself.run hrunning ⟨rfl, hstate⟩ hrun
    exact hkept

end Mos6502.Clock

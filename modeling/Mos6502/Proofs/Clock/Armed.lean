import Mos6502.Proofs.Clock.Replies

/-!
# A running clock has its deadlines

A clock is armed if it has a grid of deadlines exactly while it is running. Between two of its calls
a clock is always armed, although a tick holds the grid in its hands while it waits, and the frame
that it runs then may stop the clock and start it again.

**Computations** (`KeepsArmed`). A computation that an armed clock is given leaves it armed, and
something is known of its value. There is a rule for each call of a clock; a call with a handler
needs the same of the handler, for every state that the handler can be called with.

**Clients** (`Client`). A computation that uses its clock by its calls alone, in whatever order, and
with handlers that do so too, leaves it armed (`Client.keepsArmed`).

**Main results.** A clock is armed at every moment of a script (`Moment.armed_after`), and no call
of a script is told that it is not (`keepsArmed_perform`).
-/

namespace Mos6502

variable {τ π ρ : Type}

namespace Clock

open ClockM

/-! ## Armed clocks -/

/-- A clock has deadlines exactly while it is running. -/
def Armed (clock : Clock) : Prop :=
  clock.running = clock.grid.isSome

theorem Armed.exists_grid {clock : Clock} (h : clock.Armed) (hrunning : clock.running = true) :
    ∃ grid : FrameGrid, clock.grid = some grid :=
  Option.isSome_iff_exists.mp (h.symm.trans hrunning)

theorem Armed.wake {clock : Clock} (hrunning : clock.running = true) (grid : FrameGrid)
    (missed : UInt64) : (clock.wake grid missed).Armed :=
  hrunning

theorem armed_woken {session : ClockSession τ} [TimeSource τ] (grid : FrameGrid)
    (hrunning : session.clock.running = true) : (session.woken grid).clock.Armed := by
  rw [session.clock_woken]
  exact .wake hrunning _ _

/-! ## Computations -/

/-- From an armed clock a computation comes to an armed clock and to a value of which `post` holds,
if it comes to an end. -/
def KeepsArmed {α : Type} (action : ClockM τ α) (post : α → Prop) : Prop :=
  ∀ (session session' : ClockSession τ) (value : α), session.clock.Armed →
    action session = some (value, session') → session'.clock.Armed ∧ post value

namespace KeepsArmed

variable {α γ : Type}

theorem pure {value : α} {post : α → Prop} (h : post value) :
    KeepsArmed (τ := τ) (Pure.pure value) post := by
  intro session session' value' harmed heq
  cases heq
  exact ⟨harmed, h⟩

theorem bind {action : ClockM τ α} {next : α → ClockM τ γ} {mid : α → Prop} {post : γ → Prop}
    (h : KeepsArmed action mid) (h' : ∀ value, mid value → KeepsArmed (next value) post) :
    KeepsArmed (action >>= next) post := by
  intro session session' value harmed heq
  obtain ⟨⟨value₁, session₁⟩, hfirst, hrest⟩ := Option.bind_eq_some_iff.mp heq
  obtain ⟨harmed₁, hmid⟩ := h session session₁ value₁ harmed hfirst
  exact h' value₁ hmid session₁ session' value harmed₁ hrest

theorem mono {action : ClockM τ α} {post post' : α → Prop} (h : KeepsArmed action post)
    (h' : ∀ value, post value → post' value) : KeepsArmed action post' := by
  intro session session' value harmed heq
  obtain ⟨harmed', hpost⟩ := h session session' value harmed heq
  exact ⟨harmed', h' value hpost⟩

/-- What a computation does with the host is not the clock's business. -/
theorem onHost {action : StateM (Host τ) α} {post : α → Prop}
    (h : ∀ host, post (action.run host).1) : KeepsArmed (ClockM.onHost action) post := by
  intro session session' value harmed heq
  cases heq
  exact ⟨harmed, h _⟩

theorem getClock : KeepsArmed (τ := τ) ClockM.getClock fun _ => True := by
  intro session session' value harmed heq
  cases heq
  exact ⟨harmed, trivial⟩

theorem giveUp {post : α → Prop} : KeepsArmed (τ := τ) ClockM.giveUp post := by
  intro session session' value harmed heq
  cases heq

end KeepsArmed

variable {σ : Type} {handler : σ → ClockM τ σ} {Inv : σ → Prop}

/-- **An armed clock can be stopped.** -/
theorem stop_of_armed {session : ClockSession τ} (h : session.clock.Armed) :
    ∃ session' : ClockSession τ, stop session = some (.ok (), session') ∧
      session'.clock.Armed := by
  cases hrunning : session.clock.running with
  | false => exact ⟨session, stop_of_stopped hrunning, h⟩
  | true =>
    obtain ⟨grid, hgrid⟩ := h.exists_grid hrunning
    exact ⟨session.stopped, stop_of_running hrunning hgrid, rfl⟩

theorem keepsArmed_stop : KeepsArmed (τ := τ) stop (· = .ok ()) := by
  intro session session' result harmed heq
  obtain ⟨session₁, hstop, harmed₁⟩ := stop_of_armed harmed
  cases hstop.symm.trans heq
  exact ⟨harmed₁, rfl⟩

theorem keepsArmed_repeatCalls (h : ∀ state, Inv state → KeepsArmed (handler state) Inv) (n : Nat) :
    ∀ state, Inv state → KeepsArmed (repeatCalls handler n state) Inv := by
  induction n with
  | zero =>
    intro state hstate
    exact .pure hstate
  | succ n ih =>
    intro state hstate session session' state' harmed heq
    rw [repeatCalls_succ] at heq
    obtain ⟨⟨state₁, session₁⟩, hcall, hrest⟩ := Option.bind_eq_some_iff.mp heq
    obtain ⟨harmed₁, hstate₁⟩ := h state hstate session session₁ state₁ harmed hcall
    exact ih state₁ hstate₁ session₁ session' state' harmed₁ hrest

variable [TimeSource τ]

theorem keepsArmed_frame (h : ∀ state, Inv state → KeepsArmed (handler state) Inv) {state : σ}
    (hstate : Inv state) : KeepsArmed (frame handler state) fun p => Inv p.2 := by
  intro session session' value harmed heq
  cases hinFrame : session.clock.inFrame with
  | true =>
    rw [frame_of_inFrame _ _ hinFrame] at heq
    cases heq
    exact ⟨harmed, hstate⟩
  | false =>
    rw [frame_of_idle _ _ hinFrame] at heq
    obtain ⟨⟨state₁, session₁⟩, hcalls, hleft⟩ := Option.map_eq_some_iff.mp heq
    cases hleft
    exact keepsArmed_repeatCalls h _ state hstate session.entered.2 session₁ state₁ harmed hcalls

theorem keepsArmed_start (h : ∀ state, Inv state → KeepsArmed (handler state) Inv) {state : σ}
    (hstate : Inv state) : KeepsArmed (start handler state) fun p => Inv p.2 := by
  intro session session' value harmed heq
  cases hrunning : session.clock.running with
  | true =>
    rw [start_of_running _ _ hrunning] at heq
    cases heq
    exact ⟨harmed, hstate⟩
  | false =>
    rw [start_of_stopped _ _ hrunning] at heq
    obtain ⟨⟨ran, session₁⟩, hframe, hended⟩ := Option.map_eq_some_iff.mp heq
    cases hended
    exact keepsArmed_frame h hstate session.started session₁ ran rfl hframe

/-- **A tick finds its grid**, and puts it back on a clock that is still running. -/
theorem keepsArmed_tick (h : ∀ state, Inv state → KeepsArmed (handler state) Inv) {state : σ}
    (hstate : Inv state) :
    KeepsArmed (tick handler state) fun p => (∃ running, p.1 = .ok running) ∧ Inv p.2 := by
  intro session session' value harmed heq
  cases hrunning : session.clock.running with
  | false =>
    rw [tick_of_stopped _ _ hrunning] at heq
    cases heq
    exact ⟨harmed, ⟨false, rfl⟩, hstate⟩
  | true =>
    obtain ⟨grid, hgrid⟩ := harmed.exists_grid hrunning
    rw [tick_of_running _ _ hrunning hgrid] at heq
    obtain ⟨⟨ran, session₁⟩, hframe, hended⟩ := Option.map_eq_some_iff.mp heq
    cases hended
    obtain ⟨harmed₁, hstate₁⟩ :=
      keepsArmed_frame h hstate (session.woken grid) session₁ ran (armed_woken grid hrunning) hframe
    exact ⟨harmed₁, ⟨_, rfl⟩, hstate₁⟩

theorem keepsArmed_tickUntilStopped (h : ∀ state, Inv state → KeepsArmed (handler state) Inv)
    (limit : Nat) : ∀ state, Inv state →
      KeepsArmed (tickUntilStopped handler limit state) fun p => p.1 = .ok () ∧ Inv p.2 := by
  induction limit with
  | zero =>
    intro state _
    exact .giveUp
  | succ limit ih =>
    intro state hstate
    refine .bind (keepsArmed_tick h hstate) fun p hp => ?_
    obtain ⟨⟨running, hresult⟩, hstate₁⟩ := hp
    obtain ⟨result, state₁⟩ := p
    obtain rfl : result = .ok running := hresult
    cases running with
    | true => exact ih state₁ hstate₁
    | false => exact .pure ⟨rfl, hstate₁⟩

theorem keepsArmed_run (h : ∀ state, Inv state → KeepsArmed (handler state) Inv) (limit : Nat)
    {state : σ} (hstate : Inv state) :
    KeepsArmed (run limit handler state) fun p => p.1 = .ok () ∧ Inv p.2 := by
  refine .bind (keepsArmed_start h hstate) fun p hstate₁ => ?_
  obtain ⟨started, state₁⟩ := p
  cases started with
  | true => exact keepsArmed_tickUntilStopped h limit state₁ hstate₁
  | false => exact .pure ⟨rfl, hstate₁⟩

theorem keepsArmed_readRecord : KeepsArmed (τ := τ) readRecord fun _ => True := by
  intro session session' record harmed heq
  cases hrunning : session.clock.running with
  | false =>
    rw [readRecord_of_stopped hrunning] at heq
    cases heq
    exact ⟨harmed, trivial⟩
  | true =>
    rw [readRecord_of_running hrunning] at heq
    cases heq
    exact ⟨harmed, trivial⟩

end Clock

/-! ## Clients -/

variable [TimeSource τ]

/-- A computation that uses its clock by its calls alone, as do the handlers it makes them with. -/
inductive Client : {α : Type} → ClockM τ α → Prop
  | pure {α : Type} (value : α) : Client (pure value)
  | bind {α γ : Type} {action : ClockM τ α} {next : α → ClockM τ γ} (h : Client action)
    (h' : ∀ value, Client (next value)) : Client (action >>= next)
  | onHost {α : Type} (action : StateM (Host τ) α) : Client (ClockM.onHost action)
  | giveUp {α : Type} : Client (ClockM.giveUp : ClockM τ α)
  | look : Client ClockM.getClock
  | start {σ : Type} {handler : σ → ClockM τ σ} (h : ∀ state, Client (handler state)) (state : σ) :
    Client (Clock.start handler state)
  | tick {σ : Type} {handler : σ → ClockM τ σ} (h : ∀ state, Client (handler state)) (state : σ) :
    Client (Clock.tick handler state)
  | run {σ : Type} {handler : σ → ClockM τ σ} (limit : Nat) (h : ∀ state, Client (handler state))
    (state : σ) : Client (Clock.run limit handler state)
  | frame {σ : Type} {handler : σ → ClockM τ σ} (h : ∀ state, Client (handler state)) (state : σ) :
    Client (Clock.frame handler state)
  | stop : Client Clock.stop
  | record : Client Clock.readRecord

/-- **A client leaves a clock armed.** -/
theorem Client.keepsArmed {α : Type} {action : ClockM τ α} (h : Client action) :
    Clock.KeepsArmed action fun _ => True := by
  induction h with
  | pure value => exact .pure trivial
  | bind _ _ ih ih' => exact ih.bind fun value _ => ih' value
  | onHost action => exact .onHost fun _ => trivial
  | giveUp => exact .giveUp
  | look => exact .getClock
  | start _ state ih =>
    exact (Clock.keepsArmed_start (fun state _ => ih state) trivial).mono fun _ _ => trivial
  | tick _ state ih =>
    exact (Clock.keepsArmed_tick (fun state _ => ih state) trivial).mono fun _ _ => trivial
  | run limit _ state ih =>
    exact (Clock.keepsArmed_run (fun state _ => ih state) limit trivial).mono fun _ _ => trivial
  | frame _ state ih =>
    exact (Clock.keepsArmed_frame (fun state _ => ih state) trivial).mono fun _ _ => trivial
  | stop => exact Clock.keepsArmed_stop.mono fun _ _ => trivial
  | record => exact Clock.keepsArmed_readRecord

/-! ## Replies -/

/-- Neither a call nor one of those that its handler made was told of a fault. -/
inductive ClockReply.Faultless : ClockReply ρ → Prop
  | handled {outcome : Outcome} {calls : Nat} {replies : List (Nat × ClockReply ρ)}
    (h : ∀ fault, outcome ≠ .failed fault) (h' : ∀ entry ∈ replies, entry.2.Faultless) :
    Faultless (.handled outcome calls replies)
  | stopped : Faultless (.stopped (.ok ()))
  | recorded (running : Bool) (record : ClockRecord) : Faultless (.recorded running record)
  | observed (answer : ρ) : Faultless (.observed answer)

/-- None of the calls that a handler made was told of a fault. -/
def Tally.Faultless (tally : Tally ρ) : Prop :=
  ∀ entry ∈ tally.replies, entry.2.Faultless

theorem Tally.faultless_new : ({} : Tally ρ).Faultless :=
  fun _ h => absurd h List.not_mem_nil

theorem keepsArmed_scripted {act : π → StateM (Host τ) ρ} {limit : Nat}
    {agenda : List (Nat × ClockCall π)}
    (h : ∀ k : Nat, Clock.KeepsArmed (ClockCall.performAt limit (acting act) agenda k)
      fun replies => ∀ entry ∈ replies, entry.2.Faultless) (tally : Tally ρ)
    (htally : tally.Faultless) :
    Clock.KeepsArmed (scripted act limit agenda tally) Tally.Faultless := by
  refine (h (tally.calls + 1)).bind fun replies hreplies => .pure fun entry hentry => ?_
  rcases List.mem_append.mp hentry with hmem | hmem
  · exact htally entry hmem
  · exact hreplies entry hmem

mutual

/-- **No call is told of a fault**, nor is any that is made by its handler. -/
theorem keepsArmed_perform (act : π → StateM (Host τ) ρ) (limit : Nat) :
    ∀ call : ClockCall π,
      Clock.KeepsArmed (ClockCall.perform limit (acting act) call) ClockReply.Faultless
  | .start agenda => by
    refine (Clock.keepsArmed_start (keepsArmed_scripted (keepsArmed_performAt act limit agenda))
      Tally.faultless_new).bind fun p htally => ?_
    exact .pure (.handled nofun htally)
  | .tick agenda => by
    refine (Clock.keepsArmed_tick (keepsArmed_scripted (keepsArmed_performAt act limit agenda))
      Tally.faultless_new).bind fun p hp => ?_
    obtain ⟨⟨running, hresult⟩, htally⟩ := hp
    obtain ⟨result, tally⟩ := p
    obtain rfl : result = .ok running := hresult
    exact .pure (.handled nofun htally)
  | .run agenda => by
    refine (Clock.keepsArmed_run (keepsArmed_scripted (keepsArmed_performAt act limit agenda))
      limit Tally.faultless_new).bind fun p hp => ?_
    obtain ⟨hresult, htally⟩ := hp
    obtain ⟨result, tally⟩ := p
    obtain rfl : result = .ok () := hresult
    exact .pure (.handled nofun htally)
  | .frame agenda => by
    refine (Clock.keepsArmed_frame (keepsArmed_scripted (keepsArmed_performAt act limit agenda))
      Tally.faultless_new).bind fun p htally => ?_
    exact .pure (.handled nofun htally)
  | .stop => by
    refine Clock.keepsArmed_stop.bind fun result hresult => ?_
    obtain rfl : result = .ok () := hresult
    exact .pure .stopped
  | .record =>
    Clock.keepsArmed_readRecord.bind fun record _ =>
      Clock.KeepsArmed.getClock.bind fun clock _ => .pure (.recorded _ _)
  | .probe what => by
    have hprobe : Clock.KeepsArmed (acting act what) fun _ => True := .onHost fun _ => trivial
    exact hprobe.bind fun answer _ => .pure (.observed answer)
termination_by structural call => call

theorem keepsArmed_performAt (act : π → StateM (Host τ) ρ) (limit : Nat) :
    ∀ (agenda : List (Nat × ClockCall π)) (k : Nat),
      Clock.KeepsArmed (ClockCall.performAt limit (acting act) agenda k)
        fun replies => ∀ entry ∈ replies, entry.2.Faultless
  | [], _ => .pure nofun
  | (number, call) :: rest, k => by
    unfold ClockCall.performAt
    by_cases hk : number = k
    · rw [if_pos hk]
      refine (keepsArmed_perform act limit call).bind fun reply hreply => ?_
      refine (keepsArmed_performAt act limit rest k).bind fun replies hreplies => ?_
      exact .pure (List.forall_mem_cons.mpr ⟨hreply, hreplies⟩)
    · rw [if_neg hk]
      exact keepsArmed_performAt act limit rest k
termination_by structural agenda => agenda

end

/-! ## Moments -/

namespace Moment

variable {m : Moment τ π}

theorem armed_request (agenda : List (Nat × ClockCall π)) (before : Nat)
    (h : m.session.clock.Armed) : (m.request agenda before).session.clock.Armed := by
  unfold request
  split
  · exact h
  · exact h

theorem armed_wake {grid : FrameGrid} (h : m.session.clock.awaitedGrid = some grid) :
    (m.wake grid).session.clock.Armed :=
  Clock.armed_woken grid (Clock.of_awaitedGrid_eq_some h).1

theorem armed_make (act : π → StateM (Host τ) ρ) (call : ClockCall π)
    (h : m.session.clock.Armed) : (m.make act call).session.clock.Armed := by
  have hmade := m.made act call
  generalize m.make act call = m' at hmade ⊢
  cases hmade with
  | nothing => exact h
  | start agenda => exact armed_request agenda 0 rfl
  | tick agenda hgrid => exact armed_request agenda 0 (armed_wake hgrid)
  | run agenda => exact armed_request agenda 0 rfl
  | frame agenda => exact armed_request agenda 0 h
  | stop => exact rfl
  | record => exact h
  | probe what => exact h

/-- **A step leaves the clock armed.** -/
theorem armed_next (act : π → StateM (Host τ) ρ) (h : m.session.clock.Armed) :
    (m.next act).session.clock.Armed := by
  obtain ⟨stack, session, ledger⟩ := m
  match stack with
  | [] => exact h
  | .calls _ [] :: _ => exact h
  | .calls _ (call :: _) :: _ => exact armed_make act call h
  | .frame _ _ _ _ (_ + 1) :: _ => exact h
  | .frame _ _ _ _ 0 :: _ => exact h
  | .loop agenda before :: _ =>
    cases hgrid : session.clock.awaitedGrid with
    | none =>
      rw [next_loop_of_none act hgrid]
      exact h
    | some grid =>
      rw [next_loop_of_some act hgrid]
      exact armed_request agenda before (armed_wake hgrid)

/-- **The clock is armed at every moment.** -/
theorem armed_after (act : π → StateM (Host τ) ρ) (pace : Pace) (host : Host τ)
    (script : List (ClockCall π)) (n : Nat) :
    ((outset pace host script).after act n).session.clock.Armed := by
  induction n with
  | zero => rfl
  | succ n ih => exact armed_next act ih

end Moment

end Mos6502

import Mos6502.Proofs.Clock.CallStack

/-!
# What the calls of a script return

A call that returns has gone, step by step, from the moment at which it was about to be made to
the moment at which it was made. On the way its handler was called as often as the reply says.

The induction is on the script. A handler's agenda is a shorter script, and what is known of it is
only needed while the clock is in a frame (`Responds`): then no call of the agenda reaches a
handler of its own.

**Main result** (`frames_exclusive_and_accounted`). The accounts are kept at every moment, and every
call that returns, returns as it should: without a handler call if the clock is in a frame, and
after exactly as many as a frame has if it is a frame that is run.
-/

namespace Mos6502

variable {τ π ρ : Type}

/-! ## Replies -/

namespace ClockReply

/-- How often the call's own handler was called. -/
def calls : ClockReply ρ → Nat
  | handled _ n _ => n
  | _ => 0

/-- The replies to the calls that the call's own handler made. -/
def nested : ClockReply ρ → List (Nat × ClockReply ρ)
  | handled _ _ replies => replies
  | _ => []

end ClockReply

/-- None of these replies tells of a handler call. -/
def Silent (replies : List (Nat × ClockReply ρ)) : Prop :=
  ∀ entry ∈ replies, entry.2.calls = 0

theorem Silent.append {replies replies' : List (Nat × ClockReply ρ)} (h : Silent replies)
    (h' : Silent replies') : Silent (replies ++ replies') := by
  intro entry hentry
  rcases List.mem_append.mp hentry with hmem | hmem
  · exact h entry hmem
  · exact h' entry hmem

/-- Probes that act on the host alone. -/
def acting (act : π → StateM (Host τ) ρ) (what : π) : ClockM τ ρ :=
  ClockM.onHost (act what)

namespace ClockCall

theorem due_cons (number : Nat) (call : ClockCall π) (rest : List (Nat × ClockCall π)) (k : Nat) :
    due ((number, call) :: rest) k = if number = k then call :: due rest k else due rest k := by
  unfold due
  rw [List.filter_cons]
  by_cases h : number = k <;> simp [h]

end ClockCall

/-! ## Handled calls -/

/-- What a call has made of a session and a tally while its handler was called `k` times. -/
structure Handled (session : ClockSession τ) (tally : Tally ρ) (session' : ClockSession τ)
    (tally' : Tally ρ) (k : Nat) : Prop where
  inFrame : session'.clock.inFrame = session.clock.inFrame
  calls : tally'.calls = tally.calls + k
  silent : Silent tally.replies → Silent tally'.replies
  idle : session.clock.inFrame = true → k = 0

theorem Handled.refl (session : ClockSession τ) (tally : Tally ρ) :
    Handled session tally session tally 0 :=
  ⟨rfl, rfl, id, fun _ => rfl⟩

theorem Handled.trans {session session₁ session₂ : ClockSession τ} {tally tally₁ tally₂ : Tally ρ}
    {a b : Nat} (h : Handled session tally session₁ tally₁ a)
    (h' : Handled session₁ tally₁ session₂ tally₂ b) :
    Handled session tally session₂ tally₂ (a + b) where
  inFrame := h'.inFrame.trans h.inFrame
  calls := by rw [h'.calls, h.calls, Nat.add_assoc]
  silent hsilent := h'.silent (h.silent hsilent)
  idle hin := by rw [h.idle hin, h'.idle (h.inFrame.trans hin)]

variable [TimeSource τ]

/-! ## Ways from moment to moment -/

namespace Moment

variable {act : π → StateM (Host τ) ρ}

/-- From a moment there is a way to a stack and a session, with so many handler calls on it. -/
def Leads (act : π → StateM (Host τ) ρ) (m : Moment τ π) (calls : Nat)
    (stack : List (Activation π)) (session : ClockSession τ) : Prop :=
  ∃ (n : Nat) (ledger : Ledger), m.after act n = ⟨stack, session, ledger⟩ ∧
    ledger.calls = m.ledger.calls + calls

theorem after_add (m : Moment τ π) (n k : Nat) :
    m.after act (n + k) = (m.after act n).after act k := by
  induction k with
  | zero => rfl
  | succ k ih => exact congrArg (next act) ih

theorem Leads.refl (stack : List (Activation π)) (session : ClockSession τ) (ledger : Ledger) :
    (⟨stack, session, ledger⟩ : Moment τ π).Leads act 0 stack session :=
  ⟨0, ledger, rfl, rfl⟩

theorem Leads.trans {m : Moment τ π} {a b : Nat} {stack stack' : List (Activation π)}
    {session session' : ClockSession τ} (h : m.Leads act a stack session)
    (h' : ∀ ledger : Ledger, (⟨stack, session, ledger⟩ : Moment τ π).Leads act b stack' session') :
    m.Leads act (a + b) stack' session' := by
  obtain ⟨n, ledger, hafter, hcalls⟩ := h
  obtain ⟨k, ledger', hafter', hcalls'⟩ := h' ledger
  refine ⟨n + k, ledger', by rw [after_add, hafter, hafter'], ?_⟩
  rw [hcalls', hcalls, Nat.add_assoc]

/-- A way begins with a step. -/
theorem Leads.of_next {m m₁ : Moment τ π} {a b : Nat} {stack : List (Activation π)}
    {session : ClockSession τ} (hnext : m.next act = m₁) (h : m₁.Leads act a stack session)
    (hcalls : m₁.ledger.calls + a = m.ledger.calls + b) : m.Leads act b stack session := by
  obtain ⟨n, ledger, hafter, hcalls'⟩ := h
  refine ⟨1 + n, ledger, ?_, hcalls'.trans hcalls⟩
  rw [after_add, ← hafter, ← hnext]
  rfl

theorem calls_request (m : Moment τ π) (agenda : List (Nat × ClockCall π)) (before : Nat) :
    (m.request agenda before).ledger.calls = m.ledger.calls := by
  unfold request
  split <;> rfl

end Moment

/-! ## Handlers -/

/-- A handler that does what an agenda says and keeps a tally. -/
abbrev scripted (act : π → StateM (Host τ) ρ) (limit : Nat) (agenda : List (Nat × ClockCall π)) :
    Tally ρ → ClockM τ (Tally ρ) :=
  Tally.next (ClockCall.performAt limit (acting act) agenda)

/-- In a frame the calls of an agenda reach no handler, and are made one after another. -/
def Responds (act : π → StateM (Host τ) ρ) (limit : Nat) (agenda : List (Nat × ClockCall π)) :
    Prop :=
  ∀ (k : Nat) (session session' : ClockSession τ) (replies : List (Nat × ClockReply ρ)),
    session.clock.inFrame = true →
    ClockCall.performAt limit (acting act) agenda k session = some (replies, session') →
    session'.clock.inFrame = true ∧ Silent replies ∧
    ∀ (caller : Caller) (rest : List (ClockCall π)) (below : List (Activation π))
      (ledger : Ledger),
      (⟨.calls caller (ClockCall.due agenda k ++ rest) :: below, session, ledger⟩ :
        Moment τ π).Leads act 0 (.calls caller rest :: below) session'

variable {act : π → StateM (Host τ) ρ} {limit : Nat} {agenda : List (Nat × ClockCall π)}

theorem scripted_eq_some {tally tally' : Tally ρ} {session session' : ClockSession τ}
    (h : scripted act limit agenda tally session = some (tally', session')) :
    ∃ replies : List (Nat × ClockReply ρ),
      ClockCall.performAt limit (acting act) agenda (tally.calls + 1) session =
        some (replies, session') ∧
      tally' = ⟨tally.calls + 1, tally.replies ++ replies⟩ := by
  replace h : (ClockCall.performAt limit (acting act) agenda (tally.calls + 1) session).bind
    (fun p => some ((⟨tally.calls + 1, tally.replies ++ p.1⟩ : Tally ρ), p.2)) =
      some (tally', session') := h
  obtain ⟨⟨replies, session₁⟩, hperform, heq⟩ := Option.bind_eq_some_iff.mp h
  cases heq
  exact ⟨replies, hperform, rfl⟩

/-- **The calls of a frame**, one after another. -/
theorem repeatCalls_leads (hresponds : Responds act limit agenda) (began : Instant)
    (before : Nat) (below : List (Activation π)) (n : Nat) :
    ∀ (made : Nat) (tally tally' : Tally ρ) (session session' : ClockSession τ),
      tally.calls = before + made → session.clock.inFrame = true →
      Clock.repeatCalls (scripted act limit agenda) n tally session = some (tally', session') →
      session'.clock.inFrame = true ∧ tally'.calls = tally.calls + n ∧
      (Silent tally.replies → Silent tally'.replies) ∧
      ∀ ledger : Ledger,
        (⟨.frame began agenda before made n :: below, session, ledger⟩ : Moment τ π).Leads act n
          (.frame began agenda before (made + n) 0 :: below) session' := by
  induction n with
  | zero =>
    intro made tally tally' session session' _ hinFrame h
    cases h
    exact ⟨hinFrame, rfl, id, .refl _ _⟩
  | succ n ih =>
    intro made tally tally' session session' hcalls hinFrame h
    rw [Clock.repeatCalls_succ] at h
    obtain ⟨⟨tally₁, session₁⟩, hfirst, hrest⟩ := Option.bind_eq_some_iff.mp h
    obtain ⟨replies, hperform, rfl⟩ := scripted_eq_some hfirst
    obtain ⟨hinFrame₁, hsilent₁, hleads₁⟩ := hresponds _ _ _ _ hinFrame hperform
    obtain ⟨hinFrame₂, hcalls₂, hsilent₂, hleads₂⟩ :=
      ih (made + 1) _ tally' session₁ session' (congrArg (· + 1) hcalls) hinFrame₁ hrest
    refine ⟨hinFrame₂, ?_, fun h => hsilent₂ (h.append hsilent₁), fun ledger => ?_⟩
    · rw [hcalls₂]
      exact Nat.add_right_comm tally.calls 1 n
    · -- One call is begun, the handler makes its calls and returns, and the others follow.
      have hbegun := hleads₁ .handler [] (.frame began agenda before (made + 1) n :: below)
        { ledger with calls := ledger.calls + 1 }
      rw [List.append_nil, hcalls] at hbegun
      have hreturned (ledger : Ledger) :
          (⟨.calls .handler [] :: .frame began agenda before (made + 1) n :: below, session₁,
            ledger⟩ : Moment τ π).Leads act n
            (.frame began agenda before (made + 1 + n) 0 :: below) session' :=
        .of_next rfl (hleads₂ ledger) rfl
      rw [Nat.add_assoc, Nat.add_comm 1] at hreturned
      refine .of_next rfl (hbegun.trans hreturned) ?_
      show ledger.calls + 1 + (0 + n) = ledger.calls + (n + 1)
      omega

/-- **A frame** is refused, or run with all its calls. -/
theorem frame_leads (hresponds : Responds act limit agenda) {tally tally' : Tally ρ}
    {session session' : ClockSession τ} {ran : Bool}
    (h : Clock.frame (scripted act limit agenda) tally session = some ((ran, tally'), session')) :
    ran = !session.clock.inFrame ∧
    ∃ k : Nat, k = (if ran then session.clock.pace.calls else 0) ∧
      Handled session tally session' tally' k ∧
      ∀ below : List (Activation π), Moment.resume tally.calls below = below → ∀ ledger : Ledger,
        ((⟨below, session, ledger⟩ : Moment τ π).request agenda tally.calls).Leads act k
          (Moment.resume tally'.calls below) session' := by
  cases hinFrame : session.clock.inFrame with
  | true =>
    rw [Clock.frame_of_inFrame _ _ hinFrame] at h
    cases h
    refine ⟨rfl, 0, rfl, ⟨rfl, rfl, id, fun _ => rfl⟩, fun below hbelow ledger => ?_⟩
    unfold Moment.request
    rw [if_pos hinFrame, hbelow]
    exact ⟨0, _, rfl, rfl⟩
  | false =>
    rw [Clock.frame_of_idle _ _ hinFrame] at h
    obtain ⟨⟨tally₁, session₁⟩, hcalls, heq⟩ := Option.map_eq_some_iff.mp h
    cases heq
    have hframe (below : List (Activation π)) :=
      repeatCalls_leads hresponds session.entered.1 tally.calls below session.clock.pace.calls 0
        tally tally₁ session.entered.2 session₁ rfl rfl hcalls
    obtain ⟨-, hcalls₁, hsilent₁, -⟩ := hframe []
    refine ⟨rfl, session.clock.pace.calls, rfl, ⟨hinFrame.symm, hcalls₁, hsilent₁,
      fun hin => absurd hin (ne_true_of_eq_false hinFrame)⟩,
      fun below _ ledger => ?_⟩
    obtain ⟨-, -, -, hleads₁⟩ := hframe below
    rw [Nat.zero_add] at hleads₁
    have hended (ledger : Ledger) :
        (⟨.frame session.entered.1 agenda tally.calls session.clock.pace.calls 0 :: below, session₁,
          ledger⟩ : Moment τ π).Leads act 0 (Moment.resume tally₁.calls below)
          (session₁.left session.entered.1) := by
      rw [hcalls₁]
      exact .of_next rfl (.refl _ _ _) rfl
    unfold Moment.request
    rw [if_neg (ne_true_of_eq_false hinFrame)]
    exact (hleads₁ ledger).trans hended

/-! ## Ticks -/

/-- A tick is a wait and a frame. -/
theorem tick_leads (hresponds : Responds act limit agenda) {tally tally' : Tally ρ}
    {session session' : ClockSession τ} {grid : FrameGrid} {result : Except ClockFault Bool}
    (hgrid : session.clock.awaitedGrid = some grid)
    (h : Clock.tick (scripted act limit agenda) tally session = some ((result, tally'), session')) :
    result = .ok session'.clock.running ∧
    ∃ k : Nat, Handled session tally session' tally' k ∧
      ∀ below : List (Activation π), Moment.resume tally.calls below = below → ∀ ledger : Ledger,
        (((⟨below, session, ledger⟩ : Moment τ π).wake grid).request agenda tally.calls).Leads act k
          (Moment.resume tally'.calls below) session' := by
  obtain ⟨hrunning, harmed⟩ := Clock.of_awaitedGrid_eq_some hgrid
  rw [Clock.tick_of_running _ _ hrunning harmed] at h
  obtain ⟨⟨⟨ran, tally₁⟩, session₁⟩, hframe, heq⟩ := Option.map_eq_some_iff.mp h
  cases heq
  obtain ⟨-, k, -, hhandled, hleads⟩ := frame_leads hresponds hframe
  have hinFrame : (session.woken grid).clock.inFrame = session.clock.inFrame := by
    rw [ClockSession.clock_woken]
    rfl
  refine ⟨rfl, k, ⟨hhandled.inFrame.trans hinFrame, hhandled.calls, hhandled.silent,
    fun hin => hhandled.idle (hinFrame.trans hin)⟩, fun below hbelow ledger => ?_⟩
  exact hleads below hbelow
    { ledger with missed := ledger.missed + (session.awaited grid).1.1.toNat }

/-! ## Runs -/

theorem loop_leads_of_none {before : Nat} {session : ClockSession τ}
    (h : session.clock.awaitedGrid = none) (below : List (Activation π)) (ledger : Ledger) :
    (⟨.loop agenda before :: below, session, ledger⟩ : Moment τ π).Leads act 0 below session :=
  .of_next (Moment.next_loop_of_none act h) (.refl _ _ _) rfl

/-- **A run** goes from tick to tick until the clock is stopped. -/
theorem tickUntilStopped_leads (hresponds : Responds act limit agenda) (n : Nat) :
    ∀ (tally tally' : Tally ρ) (session session' : ClockSession τ)
      (result : Except ClockFault Unit),
      Clock.tickUntilStopped (scripted act limit agenda) n tally session =
        some ((result, tally'), session') →
      ∃ k : Nat, Handled session tally session' tally' k ∧
        ∀ (below : List (Activation π)) (ledger : Ledger),
          (⟨.loop agenda tally.calls :: below, session, ledger⟩ : Moment τ π).Leads act k below
            session' := by
  induction n with
  | zero =>
    intro tally tally' session session' result h
    cases h
  | succ n ih =>
    intro tally tally' session session' result h
    rw [Clock.tickUntilStopped_succ] at h
    obtain ⟨⟨⟨ticked, tally₁⟩, session₁⟩, htick, hrest⟩ := Option.bind_eq_some_iff.mp h
    cases hgrid : session.clock.awaitedGrid with
    | none =>
      obtain ⟨ended, hended, hstill⟩ :=
        Clock.tick_of_awaitedGrid_none (scripted act limit agenda) tally hgrid
      have hsame : tally' = tally ∧ session' = session := by
        rw [hstill] at htick
        match ended, hended, htick with
        | .ok false, _, htick =>
          cases htick
          cases hrest
          exact ⟨rfl, rfl⟩
        | .error _, _, htick =>
          cases htick
          cases hrest
          exact ⟨rfl, rfl⟩
        | .ok true, hended, _ => exact absurd rfl hended
      obtain ⟨rfl, rfl⟩ := hsame
      exact ⟨0, .refl _ _, loop_leads_of_none hgrid⟩
    | some grid =>
      obtain ⟨rfl, a, hhandled, hleads⟩ :=
        tick_leads hresponds hgrid htick
      have hticked (below : List (Activation π)) (ledger : Ledger) :
          (⟨.loop agenda tally.calls :: below, session, ledger⟩ : Moment τ π).Leads act a
            (.loop agenda tally₁.calls :: below) session₁ := by
        refine .of_next (Moment.next_loop_of_some act hgrid) (hleads _ rfl ledger) ?_
        rw [Moment.calls_request]
        rfl
      cases hrunning : session₁.clock.running with
      | true =>
        rw [hrunning] at hrest
        obtain ⟨b, hhandled', hleads'⟩ := ih tally₁ tally' session₁ session' result hrest
        exact ⟨a + b, hhandled.trans hhandled',
          fun below ledger => (hticked below ledger).trans (hleads' below)⟩
      | false =>
        rw [hrunning] at hrest
        cases hrest
        have hnone : session₁.clock.awaitedGrid = none := by
          unfold Clock.awaitedGrid
          rw [hrunning]
          rfl
        exact ⟨a, hhandled,
          fun below ledger => (hticked below ledger).trans (loop_leads_of_none hnone below)⟩

/-! ## Calls that return -/

/-- What is said of a call that returned, made at a session and followed by another. -/
structure Returned (act : π → StateM (Host τ) ρ) (call : ClockCall π) (session : ClockSession τ)
    (reply : ClockReply ρ) (session' : ClockSession τ) : Prop where
  inFrame : session'.clock.inFrame = session.clock.inFrame
  /-- During a frame no handler is called. -/
  idle : session.clock.inFrame = true → reply.calls = 0
  /-- A frame tells whether it was run, and its handler was called as often as a frame has calls,
  or never. -/
  frame (agenda : List (Nat × ClockCall π)) : call = .frame agenda →
    reply = .handled (.flag (!session.clock.inFrame))
      (if session.clock.inFrame then 0 else session.clock.pace.calls) reply.nested
  /-- The calls that the handler made reached no handler. -/
  silent : Silent reply.nested
  /-- The call was made step by step, and the steps called its handler as often as it says. -/
  leads (caller : Caller) (rest : List (ClockCall π)) (below : List (Activation π))
    (ledger : Ledger) :
    (⟨.calls caller (call :: rest) :: below, session, ledger⟩ : Moment τ π).Leads act reply.calls
      (.calls caller rest :: below) session'

theorem silent_nil : Silent ([] : List (Nat × ClockReply ρ)) :=
  fun _ h => absurd h List.not_mem_nil

/-- A call with a handler that is not a frame. -/
theorem Returned.of_handled {call : ClockCall π} {session session' : ClockSession τ}
    {tally : Tally ρ} {k : Nat} (outcome : Outcome)
    (hhandled : Handled session ({} : Tally ρ) session' tally k)
    (hframe : ∀ agenda, call ≠ .frame agenda)
    (hleads : ∀ (caller : Caller) (rest : List (ClockCall π)) (below : List (Activation π))
      (ledger : Ledger),
      (⟨.calls caller (call :: rest) :: below, session, ledger⟩ : Moment τ π).Leads act k
        (.calls caller rest :: below) session') :
    Returned act call session (tally.reply outcome) session' := by
  have hcalls : (tally.reply outcome).calls = k := hhandled.calls.trans (Nat.zero_add k)
  refine ⟨hhandled.inFrame, fun hin => hcalls.trans (hhandled.idle hin),
    fun agenda heq => absurd heq (hframe agenda), hhandled.silent silent_nil, ?_⟩
  rw [hcalls]
  exact hleads

/-- A call without a handler makes one step. -/
theorem Returned.of_silent {call : ClockCall π} {session session' : ClockSession τ}
    {reply : ClockReply ρ} (hcalls : reply.calls = 0) (hnested : reply.nested = [])
    (hframe : ∀ agenda, call ≠ .frame agenda)
    (hinFrame : session'.clock.inFrame = session.clock.inFrame)
    (hmake : ∀ (stack : List (Activation π)) (ledger : Ledger),
      (⟨stack, session, ledger⟩ : Moment τ π).make act call = ⟨stack, session', ledger⟩) :
    Returned act call session reply session' := by
  refine ⟨hinFrame, fun _ => hcalls, fun agenda heq => absurd heq (hframe agenda), ?_,
    fun caller rest below ledger => ?_⟩
  · rw [hnested]
    exact silent_nil
  · rw [hcalls]
    exact .of_next (hmake _ ledger) (.refl _ _ _) rfl

theorem returned_frame (hresponds : Responds act limit agenda) {session session' : ClockSession τ}
    {reply : ClockReply ρ}
    (h : ClockCall.perform limit (acting act) (.frame agenda) session = some (reply, session')) :
    Returned act (.frame agenda) session reply session' := by
  replace h : (Clock.frame (scripted act limit agenda) {} session).bind
    (fun p => some (p.1.2.reply (.flag p.1.1), p.2)) = some (reply, session') := h
  obtain ⟨⟨⟨ran, tally⟩, session₁⟩, hframe, heq⟩ := Option.bind_eq_some_iff.mp h
  cases heq
  obtain ⟨rfl, k, hk, hhandled, hleads⟩ := frame_leads hresponds hframe
  have hcalls : tally.calls = k := hhandled.calls.trans (Nat.zero_add k)
  refine ⟨hhandled.inFrame, fun hin => hcalls.trans (hhandled.idle hin), fun _ _ => ?_,
    hhandled.silent silent_nil, fun caller rest below ledger => ?_⟩
  · show ClockReply.handled _ tally.calls tally.replies = .handled _ _ tally.replies
    rw [hcalls, hk]
    cases session.clock.inFrame <;> rfl
  · have hnext : (⟨.calls caller (.frame agenda :: rest) :: below, session, ledger⟩ :
        Moment τ π).next act =
        (⟨.calls caller rest :: below, session, ledger⟩ : Moment τ π).request agenda 0 := rfl
    refine .of_next hnext (hleads (.calls caller rest :: below) rfl ledger) ?_
    rw [Moment.calls_request, ← hcalls]
    rfl

theorem returned_start (hresponds : Responds act limit agenda) {session session' : ClockSession τ}
    {reply : ClockReply ρ}
    (h : ClockCall.perform limit (acting act) (.start agenda) session = some (reply, session')) :
    Returned act (.start agenda) session reply session' := by
  replace h : (Clock.start (scripted act limit agenda) {} session).bind
    (fun p => some (p.1.2.reply (.flag p.1.1), p.2)) = some (reply, session') := h
  obtain ⟨⟨⟨started, tally⟩, session₁⟩, hstart, heq⟩ := Option.bind_eq_some_iff.mp h
  cases heq
  cases hrunning : session.clock.running with
  | true =>
    rw [Clock.start_of_running _ _ hrunning] at hstart
    cases hstart
    refine .of_handled _ (.refl _ _) nofun fun caller rest below ledger => ?_
    exact .of_next (if_pos hrunning) (.refl _ _ _) rfl
  | false =>
    rw [Clock.start_of_stopped _ _ hrunning] at hstart
    obtain ⟨⟨⟨ran, tally₁⟩, session₂⟩, hframe, heq⟩ := Option.map_eq_some_iff.mp hstart
    cases heq
    obtain ⟨-, k, -, ⟨hinFrame, hcalls, hsilent, hidle⟩, hleads⟩ := frame_leads hresponds hframe
    refine .of_handled _ ⟨hinFrame, hcalls, hsilent, hidle⟩ nofun
      fun caller rest below ledger => ?_
    refine .of_next (if_neg (ne_true_of_eq_false hrunning))
      (hleads (.calls caller rest :: below) rfl ledger) ?_
    rw [Moment.calls_request]

/-- What a tick reports. -/
def Outcome.ofTick : Except ClockFault Bool → Outcome
  | .ok running => .flag running
  | .error fault => .failed fault

/-- What a run reports. -/
def Outcome.ofRun : Except ClockFault Unit → Outcome
  | .ok () => .finished
  | .error fault => .failed fault

theorem perform_tick (act : π → StateM (Host τ) ρ) (limit : Nat)
    (agenda : List (Nat × ClockCall π)) (session : ClockSession τ) :
    ClockCall.perform limit (acting act) (.tick agenda) session =
      (Clock.tick (scripted act limit agenda) {} session).map fun p =>
        (p.1.2.reply (.ofTick p.1.1), p.2) := by
  show (Clock.tick (scripted act limit agenda) {} session).bind _ = _
  cases Clock.tick (scripted act limit agenda) {} session with
  | none => rfl
  | some p =>
    obtain ⟨⟨result, tally⟩, session⟩ := p
    cases result <;> rfl

theorem perform_run (act : π → StateM (Host τ) ρ) (limit : Nat)
    (agenda : List (Nat × ClockCall π)) (session : ClockSession τ) :
    ClockCall.perform limit (acting act) (.run agenda) session =
      (Clock.run limit (scripted act limit agenda) {} session).map fun p =>
        (p.1.2.reply (.ofRun p.1.1), p.2) := by
  show (Clock.run limit (scripted act limit agenda) {} session).bind _ = _
  cases Clock.run limit (scripted act limit agenda) {} session with
  | none => rfl
  | some p =>
    obtain ⟨⟨result, tally⟩, session⟩ := p
    cases result <;> rfl

theorem returned_tick (hresponds : Responds act limit agenda) {session session' : ClockSession τ}
    {reply : ClockReply ρ}
    (h : ClockCall.perform limit (acting act) (.tick agenda) session = some (reply, session')) :
    Returned act (.tick agenda) session reply session' := by
  rw [perform_tick] at h
  obtain ⟨⟨⟨result, tally⟩, session₁⟩, htick, heq⟩ := Option.map_eq_some_iff.mp h
  cases heq
  cases hgrid : session.clock.awaitedGrid with
  | none =>
    obtain ⟨_, -, hstill⟩ :=
      Clock.tick_of_awaitedGrid_none (scripted act limit agenda) {} hgrid
    rw [hstill] at htick
    cases htick
    refine .of_handled _ (.refl _ _) nofun fun caller rest below ledger => ?_
    exact .of_next (Moment.make_tick_of_none act agenda hgrid) (.refl _ _ ledger) rfl
  | some grid =>
    obtain ⟨-, k, hhandled, hleads⟩ := tick_leads hresponds hgrid htick
    refine .of_handled _ hhandled nofun fun caller rest below ledger => ?_
    refine .of_next (Moment.make_tick_of_some act agenda hgrid)
      (hleads (.calls caller rest :: below) rfl ledger) ?_
    rw [Moment.calls_request]
    rfl

theorem returned_run (hresponds : Responds act limit agenda) {session session' : ClockSession τ}
    {reply : ClockReply ρ}
    (h : ClockCall.perform limit (acting act) (.run agenda) session = some (reply, session')) :
    Returned act (.run agenda) session reply session' := by
  rw [perform_run] at h
  obtain ⟨⟨⟨result, tally⟩, session₁⟩, hrun, heq⟩ := Option.map_eq_some_iff.mp h
  cases heq
  rw [Clock.run_eq] at hrun
  cases hrunning : session.clock.running with
  | true =>
    rw [Clock.start_of_running _ _ hrunning] at hrun
    cases hrun
    refine .of_handled _ (.refl _ _) nofun fun caller rest below ledger => ?_
    exact .of_next (if_pos hrunning) (.refl _ _ _) rfl
  | false =>
    rw [Clock.start_of_stopped _ _ hrunning] at hrun
    obtain ⟨p, hstart, hticks⟩ := Option.bind_eq_some_iff.mp hrun
    obtain ⟨⟨⟨ran, tally₁⟩, session₂⟩, hframe, rfl⟩ := Option.map_eq_some_iff.mp hstart
    obtain ⟨-, a, -, ⟨hinFrame, hcalls, hsilent, hidle⟩, hleads⟩ := frame_leads hresponds hframe
    obtain ⟨b, hhandled', hleads'⟩ := tickUntilStopped_leads hresponds limit _ _ _ _ _ hticks
    have hhandled : Handled session ({} : Tally ρ) session₂ tally₁ a :=
      ⟨hinFrame, hcalls, hsilent, hidle⟩
    refine .of_handled _ (hhandled.trans hhandled') nofun fun caller rest below ledger => ?_
    refine .of_next (if_neg (ne_true_of_eq_false hrunning))
      ((hleads (.loop agenda 0 :: .calls caller rest :: below) rfl ledger).trans
        (hleads' (.calls caller rest :: below))) ?_
    rw [Moment.calls_request]

theorem returned_stop {session session' : ClockSession τ} {reply : ClockReply ρ}
    (h : ClockCall.perform limit (acting act) .stop session = some (reply, session')) :
    Returned act .stop session reply session' := by
  replace h : (Clock.stop session).bind (fun p => some (.stopped p.1, p.2)) =
    some (reply, session') := h
  obtain ⟨⟨result, session₁⟩, hstop, heq⟩ := Option.bind_eq_some_iff.mp h
  cases heq
  cases hgrid : session.clock.awaitedGrid with
  | none =>
    obtain ⟨_, hstill⟩ := Clock.stop_of_awaitedGrid_none hgrid
    rw [hstill] at hstop
    cases hstop
    exact .of_silent rfl rfl nofun rfl fun _ _ => Moment.make_stop_of_none act hgrid
  | some grid =>
    obtain ⟨hrunning, harmed⟩ := Clock.of_awaitedGrid_eq_some hgrid
    rw [Clock.stop_of_running hrunning harmed] at hstop
    cases hstop
    exact .of_silent rfl rfl nofun rfl fun _ _ => Moment.make_stop_of_some act hgrid

theorem returned_record {session session' : ClockSession τ} {reply : ClockReply ρ}
    (h : ClockCall.perform limit (acting act) .record session = some (reply, session')) :
    Returned act .record session reply session' := by
  replace h : (Clock.readRecord session).bind
    (fun p => some (.recorded p.2.clock.running p.1, p.2)) = some (reply, session') := h
  obtain ⟨⟨record, session₁⟩, hread, heq⟩ := Option.bind_eq_some_iff.mp h
  cases heq
  cases hrunning : session.clock.running with
  | true =>
    rw [Clock.readRecord_of_running hrunning] at hread
    cases hread
    exact .of_silent rfl rfl nofun rfl fun _ _ => if_pos hrunning
  | false =>
    rw [Clock.readRecord_of_stopped hrunning] at hread
    cases hread
    exact .of_silent rfl rfl nofun rfl
      fun _ _ => if_neg (ne_true_of_eq_false hrunning)

theorem returned_probe {what : π} {session session' : ClockSession τ} {reply : ClockReply ρ}
    (h : ClockCall.perform limit (acting act) (.probe what) session = some (reply, session')) :
    Returned act (.probe what) session reply session' := by
  replace h : some (ClockReply.observed ((act what).run session.host).1,
    session.onto ((act what).run session.host).2) = some (reply, session') := h
  cases h
  exact .of_silent rfl rfl nofun rfl fun _ _ => rfl

/-! ## Scripts -/

theorem responds_nil (act : π → StateM (Host τ) ρ) (limit : Nat) : Responds act limit [] := by
  intro k session session' replies hinFrame h
  cases h
  exact ⟨hinFrame, silent_nil, fun _ _ _ _ => .refl _ _ _⟩

theorem responds_cons {number : Nat} {call : ClockCall π} {rest : List (Nat × ClockCall π)}
    (hcall : ∀ (session session' : ClockSession τ) (reply : ClockReply ρ),
      ClockCall.perform limit (acting act) call session = some (reply, session') →
      Returned act call session reply session')
    (hrest : Responds act limit rest) : Responds act limit ((number, call) :: rest) := by
  intro k session session' replies hinFrame h
  unfold ClockCall.performAt at h
  by_cases hk : number = k
  · rw [if_pos hk] at h
    replace h : (ClockCall.perform limit (acting act) call session).bind (fun p =>
      (ClockCall.performAt limit (acting act) rest k p.2).bind fun q =>
        some ((k, p.1) :: q.1, q.2)) = some (replies, session') := h
    obtain ⟨⟨reply, session₁⟩, hperform, hothers⟩ := Option.bind_eq_some_iff.mp h
    obtain ⟨⟨others, session₂⟩, hperformAt, heq⟩ := Option.bind_eq_some_iff.mp hothers
    cases heq
    have hreturned := hcall session session₁ reply hperform
    have hreply := hreturned.idle hinFrame
    obtain ⟨hinFrame', hsilent, hleads⟩ :=
      hrest k session₁ session₂ others (hreturned.inFrame.trans hinFrame) hperformAt
    refine ⟨hinFrame', ?_, fun caller todo below ledger => ?_⟩
    · intro entry hentry
      rcases List.mem_cons.mp hentry with rfl | hmem
      · exact hreply
      · exact hsilent entry hmem
    · rw [ClockCall.due_cons, if_pos hk]
      have hfirst := hreturned.leads caller (ClockCall.due rest k ++ todo) below ledger
      rw [hreply] at hfirst
      exact hfirst.trans (hleads caller todo below)
  · rw [if_neg hk] at h
    obtain ⟨hinFrame', hsilent, hleads⟩ := hrest k session session' replies hinFrame h
    refine ⟨hinFrame', hsilent, fun caller todo below ledger => ?_⟩
    rw [ClockCall.due_cons, if_neg hk]
    exact hleads caller todo below ledger

mutual

/-- **A call that returns, returns as it should.** -/
theorem returned_of_perform (act : π → StateM (Host τ) ρ) (limit : Nat) :
    ∀ (call : ClockCall π) (session session' : ClockSession τ) (reply : ClockReply ρ),
      ClockCall.perform limit (acting act) call session = some (reply, session') →
      Returned act call session reply session'
  | .start agenda, _, _, _, h => returned_start (responds act limit agenda) h
  | .tick agenda, _, _, _, h => returned_tick (responds act limit agenda) h
  | .run agenda, _, _, _, h => returned_run (responds act limit agenda) h
  | .frame agenda, _, _, _, h => returned_frame (responds act limit agenda) h
  | .stop, _, _, _, h => returned_stop h
  | .record, _, _, _, h => returned_record h
  | .probe _, _, _, _, h => returned_probe h
termination_by structural call => call

theorem responds (act : π → StateM (Host τ) ρ) (limit : Nat) :
    ∀ agenda : List (Nat × ClockCall π), Responds act limit agenda
  | [] => responds_nil act limit
  | (_, call) :: rest =>
    responds_cons (returned_of_perform act limit call) (responds act limit rest)
termination_by structural agenda => agenda

end

/-- **Frames exclude each other and are all accounted for.** Whatever a new clock is told to do, the
accounts are right at every moment. Every call that returns, at any session, has called its handler
as often as it should: never during a frame, and as a frame as often as a frame has calls. -/
theorem frames_exclusive_and_accounted (act : π → StateM (Host τ) ρ) (pace : Pace) (host : Host τ)
    (script : List (ClockCall π)) (limit : Nat) :
    (∀ n : Nat, ((Moment.outset pace host script).after act n).Accounted pace) ∧
    ∀ (call : ClockCall π) (session session' : ClockSession τ) (reply : ClockReply ρ),
      ClockCall.perform limit (acting act) call session = some (reply, session') →
      Returned act call session reply session' :=
  ⟨fun n => (Moment.consistent_after act host script n).accounted,
    returned_of_perform act limit⟩

/-- A frame inside a frame is refused, and the frame around it makes all its calls. -/
example :
    (ClockCall.perform 1 (acting fun _ : Unit => pure ()) (.frame [(1, .frame []), (1, .stop)])
      (⟨{ pace := ⟨2, 1, by decide, by decide⟩ }, ⟨{}, {}⟩⟩ : ClockSession SimulatedTime)).map
        (·.1) =
      some (.handled (.flag true) 2
        [(1, .handled (.flag false) 0 []), (1, .stopped (.ok ()))]) := by
  rfl

end Mos6502

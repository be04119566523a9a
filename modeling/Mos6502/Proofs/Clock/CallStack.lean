import Mos6502.Clock.Script
import Mos6502.Proofs.Clock.Calls
import Mos6502.Proofs.Clock.Pace

/-!
# The call stack of a clock

A script of calls, made step by step. Between two steps there is a stack of what is in progress:
callers with calls still to be made, frames with handler calls still to be made, and runs between
two of their frames. A ledger counts what has happened, independently of the clock's own record.

**The stack** (`Nested`). A handler is called from a frame, and there is no second frame below the
first: a frame that is asked for while one is in progress is refused. So at most one handler is
active, however calls are nested.

**Main result** (`Moment.consistent_after`, seen as `Moment.Accounted`). At every moment after a
new clock was given a script, the clock is in a frame exactly if a frame is on the stack, its record
agrees with the ledger, and the handler calls made are those of the finished frames and of the frame
in progress.
-/

namespace Mos6502

variable {τ π ρ : Type}

/-! ## Moments -/

/-- Who makes calls. -/
inductive Caller where
  /-- Whoever holds the clock. -/
  | outside
  /-- A handler that the clock is calling. -/
  | handler
  deriving DecidableEq

/-- Something in progress. A handler's agenda says what the handler does in which of its calls. -/
inductive Activation (π : Type) where
  /-- A caller with calls still to be made. -/
  | calls (caller : Caller) (todo : List (ClockCall π))
  /-- A frame that began at `began`, with `made` handler calls made and `left` to be made. The
  handler was called `before` times in earlier frames. -/
  | frame (began : Instant) (agenda : List (Nat × ClockCall π)) (before made left : Nat)
  /-- A run between two frames, whose handler was called `before` times. -/
  | loop (agenda : List (Nat × ClockCall π)) (before : Nat)

namespace Activation

def isHandler : Activation π → Bool
  | calls .handler _ => true
  | _ => false

def isFrame : Activation π → Bool
  | frame .. => true
  | _ => false

/-- The handler calls of a frame in progress. -/
def callsMade : Activation π → Nat
  | frame _ _ _ made _ => made
  | _ => 0

end Activation

/-- The handler calls of the frames in progress. -/
def callsInProgress : List (Activation π) → Nat
  | [] => 0
  | activation :: below => activation.callsMade + callsInProgress below

/-- What has happened so far. -/
structure Ledger where
  /-- Handler calls begun. -/
  calls : Nat := 0
  /-- Frames that came to their end. -/
  frames : Nat := 0
  /-- Frames asked for in vain. -/
  refused : Nat := 0
  /-- Deadlines reported missed. -/
  missed : Nat := 0

/-- A stack, with the top first, a clock on its host, and a ledger. -/
structure Moment (τ π : Type) where
  stack : List (Activation π)
  session : ClockSession τ
  ledger : Ledger := {}

/-! ## Steps -/

/-- The calls of an agenda for the handler's call number `k`. -/
def ClockCall.due (agenda : List (Nat × ClockCall π)) (k : Nat) : List (ClockCall π) :=
  (agenda.filter fun entry => entry.1 = k).map (·.2)

namespace Moment

/-- Go back to what is below a frame. A run takes note of how often its handler was called. -/
def resume (before : Nat) : List (Activation π) → List (Activation π)
  | .loop agenda _ :: below => .loop agenda before :: below
  | below => below

variable [TimeSource τ]

/-- Ask for a frame, for a handler that was called `before` times. -/
def request (m : Moment τ π) (agenda : List (Nat × ClockCall π)) (before : Nat) : Moment τ π :=
  if m.session.clock.inFrame then
    { m with
      session := m.session.refused
      ledger.refused := m.ledger.refused + 1 }
  else
    { m with
      stack := .frame m.session.entered.1 agenda before 0 m.session.clock.pace.calls :: m.stack
      session := m.session.entered.2 }

/-- Wait for a deadline. -/
def wake (m : Moment τ π) (grid : FrameGrid) : Moment τ π :=
  { m with
    session := m.session.woken grid
    ledger.missed := m.ledger.missed + (m.session.awaited grid).1.1.toNat }

/-- Make a call. Probes act on the host. -/
def make (act : π → StateM (Host τ) ρ) (m : Moment τ π) : ClockCall π → Moment τ π
  | .start agenda =>
    if m.session.clock.running then m
    else { m with session := m.session.started }.request agenda 0
  | .tick agenda =>
    match m.session.clock.awaitedGrid with
    | none => m
    | some grid => (m.wake grid).request agenda 0
  | .run agenda =>
    if m.session.clock.running then m
    else
      { m with
        stack := .loop agenda 0 :: m.stack
        session := m.session.started }.request agenda 0
  | .frame agenda => m.request agenda 0
  | .stop =>
    match m.session.clock.awaitedGrid with
    | none => m
    | some _ => { m with session := m.session.stopped }
  | .record => if m.session.clock.running then { m with session := m.session.measured } else m
  | .probe what => { m with session := m.session.onto ((act what).run m.session.host).2 }

theorem make_tick_of_none (act : π → StateM (Host τ) ρ) (agenda : List (Nat × ClockCall π))
    {m : Moment τ π} (h : m.session.clock.awaitedGrid = none) : m.make act (.tick agenda) = m := by
  unfold make
  rw [h]

theorem make_tick_of_some (act : π → StateM (Host τ) ρ) (agenda : List (Nat × ClockCall π))
    {m : Moment τ π} {grid : FrameGrid} (h : m.session.clock.awaitedGrid = some grid) :
    m.make act (.tick agenda) = (m.wake grid).request agenda 0 := by
  unfold make
  rw [h]

theorem make_stop_of_none (act : π → StateM (Host τ) ρ) {m : Moment τ π}
    (h : m.session.clock.awaitedGrid = none) : m.make act .stop = m := by
  unfold make
  rw [h]

theorem make_stop_of_some (act : π → StateM (Host τ) ρ) {m : Moment τ π} {grid : FrameGrid}
    (h : m.session.clock.awaitedGrid = some grid) :
    m.make act .stop = { m with session := m.session.stopped } := by
  unfold make
  rw [h]

/-- What a call can make of a moment, whichever it is. -/
inductive Made (act : π → StateM (Host τ) ρ) (m : Moment τ π) : Moment τ π → Prop
  | nothing : Made act m m
  | start (agenda : List (Nat × ClockCall π)) (h : m.session.clock.running = false) :
    Made act m ({ m with session := m.session.started }.request agenda 0)
  | tick (agenda : List (Nat × ClockCall π)) {grid : FrameGrid}
    (h : m.session.clock.awaitedGrid = some grid) : Made act m ((m.wake grid).request agenda 0)
  | run (agenda : List (Nat × ClockCall π)) (h : m.session.clock.running = false) :
    Made act m ({ m with
      stack := .loop agenda 0 :: m.stack
      session := m.session.started }.request agenda 0)
  | frame (agenda : List (Nat × ClockCall π)) : Made act m (m.request agenda 0)
  | stop {grid : FrameGrid} (h : m.session.clock.awaitedGrid = some grid) :
    Made act m { m with session := m.session.stopped }
  | record : Made act m { m with session := m.session.measured }
  | probe (what : π) :
    Made act m { m with session := m.session.onto ((act what).run m.session.host).2 }

theorem made (act : π → StateM (Host τ) ρ) (m : Moment τ π) (call : ClockCall π) :
    Made act m (m.make act call) := by
  cases call with
  | start agenda =>
    show Made act m (if m.session.clock.running = true then _ else _)
    split
    · exact .nothing
    · exact .start agenda (Bool.eq_false_iff.mpr ‹_›)
  | tick agenda =>
    cases hgrid : m.session.clock.awaitedGrid with
    | none =>
      rw [make_tick_of_none act agenda hgrid]
      exact .nothing
    | some grid =>
      rw [make_tick_of_some act agenda hgrid]
      exact .tick agenda hgrid
  | run agenda =>
    show Made act m (if m.session.clock.running = true then _ else _)
    split
    · exact .nothing
    · exact .run agenda (Bool.eq_false_iff.mpr ‹_›)
  | frame agenda => exact .frame agenda
  | stop =>
    cases hgrid : m.session.clock.awaitedGrid with
    | none =>
      rw [make_stop_of_none act hgrid]
      exact .nothing
    | some grid =>
      rw [make_stop_of_some act hgrid]
      exact .stop hgrid
  | record =>
    show Made act m (if m.session.clock.running = true then _ else _)
    split
    · exact .record
    · exact .nothing
  | probe what => exact .probe what

/-- Go on by one step. An empty stack stays. -/
def next (act : π → StateM (Host τ) ρ) (m : Moment τ π) : Moment τ π :=
  match m.stack with
  | [] => m
  | .calls _ [] :: below => { m with stack := below }
  | .calls caller (call :: rest) :: below =>
    { m with stack := .calls caller rest :: below }.make act call
  | .frame began agenda before made (left + 1) :: below =>
    { m with
      stack := .calls .handler (ClockCall.due agenda (before + made + 1)) ::
        .frame began agenda before (made + 1) left :: below
      ledger.calls := m.ledger.calls + 1 }
  | .frame began _ before made 0 :: below =>
    { m with
      stack := resume (before + made) below
      session := m.session.left began
      ledger.frames := m.ledger.frames + 1 }
  | .loop agenda before :: below =>
    match m.session.clock.awaitedGrid with
    | none => { m with stack := below }
    | some grid => (m.wake grid).request agenda before

theorem next_loop_of_none (act : π → StateM (Host τ) ρ) {agenda : List (Nat × ClockCall π)}
    {before : Nat} {below : List (Activation π)} {session : ClockSession τ} {ledger : Ledger}
    (h : session.clock.awaitedGrid = none) :
    next act ⟨.loop agenda before :: below, session, ledger⟩ = ⟨below, session, ledger⟩ := by
  unfold next
  rw [h]

theorem next_loop_of_some (act : π → StateM (Host τ) ρ) {agenda : List (Nat × ClockCall π)}
    {before : Nat} {below : List (Activation π)} {session : ClockSession τ} {ledger : Ledger}
    {grid : FrameGrid} (h : session.clock.awaitedGrid = some grid) :
    next act ⟨.loop agenda before :: below, session, ledger⟩ =
      (wake ⟨.loop agenda before :: below, session, ledger⟩ grid).request agenda before := by
  unfold next
  rw [h]

/-- Go on by `n` steps. -/
def after (act : π → StateM (Host τ) ρ) (m : Moment τ π) : (n : Nat) → Moment τ π
  | 0 => m
  | n + 1 => (m.after act n).next act

/-- The outset: a script for a new clock. -/
def outset (pace : Pace) (host : Host τ) (script : List (ClockCall π)) : Moment τ π where
  stack := [.calls .outside script]
  session := ⟨{ pace }, host⟩

end Moment

/-! ## Nested activations -/

/-- The stacks of a clock with `c` calls a frame, and the calls made of the frame in progress, if
there is one. -/
inductive Nested (c : Nat) : Option Nat → List (Activation π) → Prop
  | returned : Nested c none []
  | outside (todo : List (ClockCall π)) : Nested c none [.calls .outside todo]
  | loop {active : Option Nat} {caller : Caller} {todo : List (ClockCall π)}
    {below : List (Activation π)} (agenda : List (Nat × ClockCall π)) (before : Nat)
    (h : Nested c active (.calls caller todo :: below)) :
    Nested c active (.loop agenda before :: .calls caller todo :: below)
  | frame {below : List (Activation π)} (began : Instant) (agenda : List (Nat × ClockCall π))
    (before : Nat) {made left : Nat} (hcalls : made + left = c) (h : Nested c none below) :
    Nested c (some made) (.frame began agenda before made left :: below)
  | handler {began : Instant} {agenda : List (Nat × ClockCall π)} {before made left : Nat}
    {below : List (Activation π)} (todo : List (ClockCall π))
    (h : Nested c (some made) (.frame began agenda before made left :: below)) :
    Nested c (some made)
      (.calls .handler todo :: .frame began agenda before made left :: below)

namespace Nested

variable {c : Nat} {active : Option Nat} {stack below : List (Activation π)}

/-- A caller may have other calls to make. -/
theorem other {caller : Caller} {todo : List (ClockCall π)} (todo' : List (ClockCall π))
    (h : Nested c active (.calls caller todo :: below)) :
    Nested c active (.calls caller todo' :: below) := by
  cases h with
  | outside => exact .outside todo'
  | handler _ h => exact .handler todo' h

/-- What is below a caller that has made its calls. -/
theorem rest {caller : Caller} {todo : List (ClockCall π)}
    (h : Nested c active (.calls caller todo :: below)) : Nested c active below := by
  cases h with
  | outside => exact .returned
  | handler _ h => exact h

theorem resume (before : Nat) (h : Nested c active stack) :
    Nested c active (Moment.resume before stack) := by
  cases h with
  | returned => exact .returned
  | outside todo => exact .outside todo
  | loop agenda _ h => exact .loop agenda before h
  | frame began agenda before hcalls h => exact .frame began agenda before hcalls h
  | handler todo h => exact .handler todo h

/-- **At most one frame** is in progress. -/
theorem countP_isFrame (h : Nested c active stack) :
    stack.countP Activation.isFrame = if active.isSome then 1 else 0 := by
  induction h with
  | returned => rfl
  | outside todo => rfl
  | loop agenda before _ ih => exact ih
  | frame began agenda before hcalls _ ih =>
    rw [List.countP_cons_of_pos rfl, ih]
    rfl
  | handler todo _ ih => exact ih

theorem countP_isHandler_of_none (h : Nested c active stack) (hnone : active = none) :
    stack.countP Activation.isHandler = 0 := by
  induction h with
  | returned => rfl
  | outside todo => rfl
  | loop agenda before _ ih => exact ih hnone
  | frame _ _ _ _ _ => cases hnone
  | handler _ _ => cases hnone

/-- **At most one handler** is active, and none without a frame. -/
theorem countP_isHandler (h : Nested c active stack) :
    stack.countP Activation.isHandler ≤ if active.isSome then 1 else 0 := by
  induction h with
  | returned => exact Nat.le_refl 0
  | outside todo => exact Nat.le_refl 0
  | loop agenda before _ ih => exact ih
  | frame began agenda before _ hbelow _ =>
    rw [List.countP_cons_of_neg Bool.false_ne_true, hbelow.countP_isHandler_of_none rfl]
    exact Nat.zero_le _
  | handler todo hframe _ =>
    cases hframe with
    | frame began agenda before _ hbelow =>
      rw [List.countP_cons_of_pos rfl, List.countP_cons_of_neg Bool.false_ne_true,
        hbelow.countP_isHandler_of_none rfl]
      exact Nat.le_refl 1

theorem callsInProgress_eq (h : Nested c active stack) :
    callsInProgress stack = active.getD 0 := by
  induction h with
  | returned => rfl
  | outside todo => rfl
  | loop agenda before _ ih => exact (Nat.zero_add _).trans ih
  | frame began agenda before hcalls _ ih => exact congrArg (_ + ·) ih
  | handler todo _ ih => exact (Nat.zero_add _).trans ih

end Nested

/-! ## Accounts -/

/-- A ledger agrees with a clock of a pace that has made `active` calls of a frame in progress. -/
structure Agrees (pace : Pace) (active : Option Nat) (clock : Clock) (ledger : Ledger) :
    Prop where
  samePace : clock.pace = pace
  inFrame : clock.inFrame = active.isSome
  frames : clock.record.frames = ledger.frames
  refused : clock.record.refused = ledger.refused
  missed : clock.record.missed = ledger.missed
  calls : ledger.calls = ledger.frames * pace.calls + active.getD 0

/-- Only what is counted matters. -/
theorem Agrees.congr {pace : Pace} {active : Option Nat} {clock clock' : Clock} {ledger : Ledger}
    (h : Agrees pace active clock ledger) (hpace : clock'.pace = clock.pace)
    (hinFrame : clock'.inFrame = clock.inFrame)
    (hframes : clock'.record.frames = clock.record.frames)
    (hrefused : clock'.record.refused = clock.record.refused)
    (hmissed : clock'.record.missed = clock.record.missed) :
    Agrees pace active clock' ledger :=
  ⟨hpace.trans h.samePace, hinFrame.trans h.inFrame, hframes.trans h.frames,
    hrefused.trans h.refused, hmissed.trans h.missed, h.calls⟩

namespace Moment

/-- A well-nested moment whose ledger agrees with its clock. -/
def Consistent (pace : Pace) (m : Moment τ π) : Prop :=
  ∃ active : Option Nat, Nested pace.calls active m.stack ∧
    Agrees pace active m.session.clock m.ledger

variable {pace : Pace} {m : Moment τ π}

/-- What holds at every moment. -/
structure Accounted (pace : Pace) (m : Moment τ π) : Prop where
  samePace : m.session.clock.pace = pace
  /-- At most one handler is active. -/
  handlers : m.stack.countP Activation.isHandler ≤ 1
  /-- There is one frame on the stack while the clock is in a frame, and none otherwise. -/
  inFrame : m.stack.countP Activation.isFrame = if m.session.clock.inFrame then 1 else 0
  frames : m.session.clock.record.frames = m.ledger.frames
  dropped : m.session.clock.record.dropped = m.ledger.refused + m.ledger.missed
  calls : m.ledger.calls = m.session.clock.record.frames * pace.calls +
    callsInProgress m.stack
  /-- The measured frequency is that of the handler calls of the finished frames. -/
  measured (begun now : Instant) : m.session.clock.record.begun = some begun → begun < now →
    (m.session.clock.measure now).record.frequency =
      .measured (m.ledger.calls - callsInProgress m.stack) (now - begun)

theorem Consistent.accounted (h : m.Consistent pace) : m.Accounted pace := by
  obtain ⟨active, hnested, hagrees⟩ := h
  have hcalls : m.ledger.calls = m.session.clock.record.frames * pace.calls +
      callsInProgress m.stack := by
    rw [hnested.callsInProgress_eq, hagrees.frames]
    exact hagrees.calls
  refine ⟨hagrees.samePace, ?_, ?_, hagrees.frames, ?_, hcalls, fun begun now hbegun hnow => ?_⟩
  · have hone := hnested.countP_isHandler
    split at hone <;> omega
  · rw [hnested.countP_isFrame, hagrees.inFrame]
  · rw [← hagrees.refused, ← hagrees.missed]
    rfl
  · rw [hcalls, Nat.add_sub_cancel, ← hagrees.samePace]
    show m.session.clock.record.frequencyAt _ now = _
    unfold ClockRecord.frequencyAt
    rw [hbegun]
    exact if_pos hnow

/-! ## Steps keep accounts -/

variable [TimeSource τ]

theorem consistent_request (agenda : List (Nat × ClockCall π)) (before : Nat)
    (h : m.Consistent pace) : (m.request agenda before).Consistent pace := by
  obtain ⟨active, hnested, hagrees⟩ := h
  unfold request
  cases active with
  | some made =>
    rw [hagrees.inFrame]
    exact ⟨some made, hnested, hagrees.samePace, hagrees.inFrame, hagrees.frames,
      congrArg (· + 1) hagrees.refused, hagrees.missed, hagrees.calls⟩
  | none =>
    rw [hagrees.inFrame]
    refine ⟨some 0, .frame _ agenda before ?_ hnested, hagrees.samePace, rfl, hagrees.frames,
      hagrees.refused, hagrees.missed, hagrees.calls⟩
    rw [hagrees.samePace, Nat.zero_add]

theorem consistent_wake (grid : FrameGrid) (h : m.Consistent pace) :
    (m.wake grid).Consistent pace := by
  obtain ⟨active, hnested, hagrees⟩ := h
  have hclock := m.session.clock_woken grid
  refine ⟨active, hnested, ?_⟩
  show Agrees pace active (m.session.woken grid).clock _
  rw [hclock]
  exact ⟨hagrees.samePace, hagrees.inFrame, hagrees.frames, hagrees.refused,
    congrArg (· + _) hagrees.missed, hagrees.calls⟩

/-- **A call keeps the accounts**, whichever it is. -/
theorem consistent_make (act : π → StateM (Host τ) ρ) {caller : Caller}
    {todo : List (ClockCall π)} {below : List (Activation π)} (call : ClockCall π)
    (hstack : m.stack = .calls caller todo :: below) (h : m.Consistent pace) :
    (m.make act call).Consistent pace := by
  have hconsistent := h
  obtain ⟨active, hnested, hagrees⟩ := h
  have hstarted : Agrees pace active m.session.started.clock m.ledger :=
    hagrees.congr rfl rfl rfl rfl rfl
  have hmade := m.made act call
  generalize m.make act call = m' at hmade ⊢
  cases hmade with
  | nothing => exact hconsistent
  | start agenda => exact consistent_request agenda 0 ⟨active, hnested, hstarted⟩
  | tick agenda => exact consistent_request agenda 0 (consistent_wake _ hconsistent)
  | run agenda =>
    refine consistent_request agenda 0 ⟨active, ?_, hstarted⟩
    rw [hstack] at hnested ⊢
    exact .loop agenda 0 hnested
  | frame agenda => exact consistent_request agenda 0 hconsistent
  | stop => exact ⟨active, hnested, hagrees.congr rfl rfl rfl rfl rfl⟩
  | record => exact ⟨active, hnested, hagrees.congr rfl rfl rfl rfl rfl⟩
  | probe what => exact ⟨active, hnested, hagrees.congr rfl rfl rfl rfl rfl⟩

/-- **A step keeps the accounts.** -/
theorem consistent_next (act : π → StateM (Host τ) ρ) (h : m.Consistent pace) :
    (m.next act).Consistent pace := by
  obtain ⟨stack, session, ledger⟩ := m
  have hconsistent := h
  obtain ⟨active, hnested, hagrees⟩ := h
  match stack, hnested with
  | [], _ => exact hconsistent
  | .calls caller [] :: below, hnested => exact ⟨active, hnested.rest, hagrees⟩
  | .calls caller (call :: rest) :: below, hnested =>
    exact consistent_make act call rfl ⟨active, hnested.other rest, hagrees⟩
  | .frame began agenda before made (left + 1) :: below, .frame _ _ _ hcalls hbelow =>
    refine ⟨some (made + 1), .handler _ (.frame began agenda before ?_ hbelow),
      hagrees.samePace, hagrees.inFrame, hagrees.frames, hagrees.refused, hagrees.missed, ?_⟩
    · rw [Nat.add_right_comm, Nat.add_assoc]
      exact hcalls
    · exact congrArg (· + 1) hagrees.calls
  | .frame began agenda before made 0 :: below, .frame _ _ _ hcalls hbelow =>
    refine ⟨none, hbelow.resume _, hagrees.samePace, rfl, congrArg (· + 1) hagrees.frames,
      hagrees.refused, hagrees.missed, ?_⟩
    show ledger.calls = (ledger.frames + 1) * pace.calls + 0
    rw [hagrees.calls, Nat.succ_mul, ← hcalls]
    rfl
  | .loop agenda before :: .calls caller todo :: below, .loop _ _ hnested =>
    cases hgrid : session.clock.awaitedGrid with
    | none =>
      rw [next_loop_of_none act hgrid]
      exact ⟨active, hnested, hagrees⟩
    | some grid =>
      rw [next_loop_of_some act hgrid]
      exact consistent_request agenda before (consistent_wake grid hconsistent)

/-- **The accounts are kept** from the outset on. -/
theorem consistent_after (act : π → StateM (Host τ) ρ) (host : Host τ)
    (script : List (ClockCall π)) (n : Nat) :
    ((outset pace host script).after act n).Consistent pace := by
  induction n with
  | zero =>
    refine ⟨none, .outside script, rfl, rfl, rfl, rfl, rfl, ?_⟩
    show 0 = 0 * pace.calls + 0
    rw [Nat.zero_mul]
  | succ n ih => exact consistent_next act ih

end Moment

end Mos6502

import Mathlib.Data.List.Chain
import Mos6502.Proofs.Clock.Replies
import Mos6502.Proofs.Host

/-!
# The history that a clock tells

A clock that keeps every event tells its history in its journal: when it was started and stopped,
which frames it finished and which it refused. The events come from calls that reenter each other,
but each of them is noted together with the change of the clock that it tells of. So a history grows
by one event at a time, and what the event can be depends on the clock alone (`Chronicle`).

**What a history tells** (`Tells`). Finished frames are numbered from one on, starts and stops take
turns, a stop tells how many frames were finished before it, and the clock is running if it was
started last. This is an induction on the chronicle, in which no call occurs.

**At every moment** (`Moment.chronicled_after`). Each step of a script keeps the chronicle.

Missed deadlines are left out: they are noted together with another change, and some waits miss
none.

Main result: `history_tells`.
-/

namespace Mos6502

variable {τ π ρ : Type}

/-! ## Histories -/

namespace Event

/-- Whether an event tells of deadlines that were missed. -/
def isMiss : Event → Bool
  | deadlinesMissed _ => true
  | _ => false

/-- The number of the frame that was finished. -/
def frameNumber : Event → Option Nat
  | frameFinished number _ => some number
  | _ => none

/-- Whether the clock was started or stopped. -/
def turn : Event → Option Bool
  | clockStarted .. => some true
  | clockStopped _ => some false
  | _ => none

end Event

/-- What a journal tells, apart from missed deadlines. -/
def Journal.history (journal : Journal) : List Event :=
  journal.events.toList.filter fun event => !event.isMiss

/-- The numbers of the finished frames. -/
def frameNumbers (history : List Event) : List Nat :=
  history.filterMap Event.frameNumber

/-- The starts, as true, and the stops, as false. -/
def turns (history : List Event) : List Bool :=
  history.filterMap Event.turn

/-- What a history tells of a clock that has finished `frames` frames and refused `refused`. -/
structure Tells (history : List Event) (frames refused : Nat) (running : Bool) : Prop where
  numbered : frameNumbers history = List.range' 1 frames
  /-- Starts and stops take turns, and a start comes first. -/
  alternating : (false :: turns history).IsChain (· ≠ ·)
  /-- A stop tells the number of frames that were finished before it. -/
  stops (before after : List Event) (n : Nat) :
    history = before ++ .clockStopped n :: after → n = (frameNumbers before).length
  running_iff : running = true ↔ (turns history).getLast? = some true
  refusals : history.count .frameRefused = refused

/-- The histories of a clock, event by event. -/
inductive Chronicle : List Event → (frames refused : Nat) → (running : Bool) → Prop
  | new : Chronicle [] 0 0 false
  | started {history : List Event} {frames refused : Nat}
    (h : Chronicle history frames refused false)
    (target callsPerFrame : UInt64) (milliseconds : Nat) :
    Chronicle (history ++ [.clockStarted target callsPerFrame milliseconds]) frames refused true
  | stopped {history : List Event} {frames refused : Nat}
    (h : Chronicle history frames refused true) :
    Chronicle (history ++ [.clockStopped frames]) frames refused false
  | refused {history : List Event} {frames refused : Nat} {running : Bool}
    (h : Chronicle history frames refused running) :
    Chronicle (history ++ [.frameRefused]) frames (refused + 1) running
  | finished {history : List Event} {frames refused : Nat} {running : Bool}
    (h : Chronicle history frames refused running) (duration : Duration) :
    Chronicle (history ++ [.frameFinished (frames + 1) duration]) (frames + 1) refused running

namespace Chronicle

variable {history : List Event} {frames refused : Nat} {running : Bool}

/-- An event that adds nothing to a list of what a history tells. -/
theorem filterMap_concat_of_none {α : Type} {told : Event → Option α} {event : Event}
    (h : told event = none) : (history ++ [event]).filterMap told = history.filterMap told := by
  rw [List.filterMap_append, List.filterMap_cons_none h, List.filterMap_nil, List.append_nil]

theorem frameNumbers_eq (h : Chronicle history frames refused running) :
    frameNumbers history = List.range' 1 frames := by
  induction h with
  | new => rfl
  | started _ _ _ _ ih => exact (filterMap_concat_of_none rfl).trans ih
  | stopped _ ih => exact (filterMap_concat_of_none rfl).trans ih
  | refused _ ih => exact (filterMap_concat_of_none rfl).trans ih
  | @finished history frames _ _ _ duration ih =>
    calc frameNumbers (history ++ [Event.frameFinished (frames + 1) duration])
        = frameNumbers history ++ [frames + 1] := List.filterMap_append ..
      _ = List.range' 1 frames ++ [1 + 1 * frames] := by rw [ih, Nat.one_mul, Nat.add_comm 1]
      _ = List.range' 1 (frames + 1) := (List.range'_concat ..).symm

/-- A turn that differs from the last one continues the chain. -/
theorem isChain_concat {turns : List Bool} {last next : Bool} (h : turns.IsChain (· ≠ ·))
    (hlast : turns.getLast? = some last) (hne : last ≠ next) :
    (turns ++ [next]).IsChain (· ≠ ·) := by
  refine List.isChain_append.mpr ⟨h, List.isChain_singleton next, fun x hx y hy => ?_⟩
  obtain rfl : last = x := Option.some.inj (hlast.symm.trans hx)
  obtain rfl : next = y := Option.some.inj hy
  exact hne

/-- The last turn tells whether the clock is running. A new clock is as if it had been stopped. -/
theorem turns_spec (h : Chronicle history frames refused running) :
    (false :: turns history).IsChain (· ≠ ·) ∧
      (false :: turns history).getLast? = some running := by
  induction h with
  | new => exact ⟨List.isChain_singleton false, rfl⟩
  | @started history _ _ _ target callsPerFrame milliseconds ih =>
    have hturns : turns (history ++ [.clockStarted target callsPerFrame milliseconds]) =
        turns history ++ [true] := List.filterMap_append ..
    rw [hturns, ← List.cons_append]
    exact ⟨isChain_concat ih.1 ih.2 Bool.false_ne_true, List.getLast?_concat⟩
  | @stopped history frames _ _ ih =>
    have hturns : turns (history ++ [.clockStopped frames]) = turns history ++ [false] :=
      List.filterMap_append ..
    rw [hturns, ← List.cons_append]
    exact ⟨isChain_concat ih.1 ih.2 Bool.false_ne_true.symm, List.getLast?_concat⟩
  | @refused history _ _ _ _ ih =>
    have hturns : turns (history ++ [.frameRefused]) = turns history :=
      filterMap_concat_of_none rfl
    rw [hturns]
    exact ih
  | @finished history frames _ _ _ duration ih =>
    have hturns : turns (history ++ [.frameFinished (frames + 1) duration]) = turns history :=
      filterMap_concat_of_none rfl
    rw [hturns]
    exact ih

/-- A stop in a history that has grown by an event is an earlier one, unless it is that event. -/
theorem stop_of_concat {event : Event} {before after : List Event} {n : Nat}
    (h : history ++ [event] = before ++ .clockStopped n :: after) :
    (event = .clockStopped n ∧ history = before) ∨
      ∃ after' : List Event, history = before ++ .clockStopped n :: after' := by
  rcases List.eq_nil_or_concat after with rfl | ⟨after', last, rfl⟩
  · obtain ⟨hhistory, hevent⟩ := List.append_inj' h rfl
    exact .inl ⟨List.singleton_inj.mp hevent, hhistory⟩
  · rw [List.concat_eq_append, ← List.cons_append, ← List.append_assoc] at h
    exact .inr ⟨after', (List.append_inj' h rfl).1⟩

/-- An event that is no stop adds none. -/
theorem stops_concat {event : Event} (hevent : ∀ n, event ≠ .clockStopped n)
    (h : ∀ (before after : List Event) (n : Nat),
      history = before ++ .clockStopped n :: after → n = (frameNumbers before).length)
    (before after : List Event) (n : Nat)
    (hsplit : history ++ [event] = before ++ .clockStopped n :: after) :
    n = (frameNumbers before).length := by
  rcases stop_of_concat hsplit with ⟨hstop, -⟩ | ⟨after', hearlier⟩
  · exact absurd hstop (hevent n)
  · exact h before after' n hearlier

theorem stops (h : Chronicle history frames refused running) :
    ∀ (before after : List Event) (n : Nat),
      history = before ++ .clockStopped n :: after → n = (frameNumbers before).length := by
  induction h with
  | new => exact fun before after n hsplit => absurd hsplit (by simp)
  | started _ _ _ _ ih => exact stops_concat (fun _ => nofun) ih
  | stopped h ih =>
    intro before after n hsplit
    rcases stop_of_concat hsplit with ⟨hevent, rfl⟩ | ⟨after', hearlier⟩
    · cases hevent
      rw [h.frameNumbers_eq, List.length_range']
    · exact ih before after' n hearlier
  | refused _ ih => exact stops_concat (fun _ => nofun) ih
  | finished _ _ ih => exact stops_concat (fun _ => nofun) ih

theorem count_frameRefused (h : Chronicle history frames refused running) :
    history.count .frameRefused = refused := by
  induction h with
  | new => rfl
  | started _ _ _ _ ih => rw [List.count_append, ih]; rfl
  | stopped _ ih => rw [List.count_append, ih]; rfl
  | refused _ ih => rw [List.count_append, ih]; rfl
  | finished _ _ ih => rw [List.count_append, ih]; rfl

/-- **What a chronicle tells.** -/
theorem tells (h : Chronicle history frames refused running) :
    Tells history frames refused running := by
  obtain ⟨halternating, hlast⟩ := h.turns_spec
  refine ⟨h.frameNumbers_eq, halternating, h.stops, ?_, h.count_frameRefused⟩
  rw [List.getLast?_cons] at hlast
  obtain rfl : (turns history).getLast?.getD false = running := Option.some.inj hlast
  cases (turns history).getLast? with
  | none => decide
  | some last => cases last <;> decide

end Chronicle

/-! ## Journals that keep everything -/

/-- A host with an empty journal that keeps every event. -/
def Host.traced (time : τ) : Host τ where
  time := time
  journal := { threshold := some .trace }

/-- Do something that concerns the time alone. -/
def Host.onTime {α : Type} (action : StateM τ α) : StateM (Host τ) α := fun ⟨time, journal⟩ =>
  let (value, time) := action.run time
  (value, ⟨time, journal⟩)

namespace Journal

variable {journal : Journal}

theorem history_note (h : journal.threshold = some .trace) (event : Event) :
    (journal.note event).history =
      journal.history ++ if event.isMiss then [] else [event] := by
  obtain ⟨threshold, events⟩ := journal
  obtain rfl : threshold = some .trace := h
  have hkept : Journal.note ⟨some .trace, events⟩ event = ⟨some .trace, events.push event⟩ := by
    have hkeeps : Journal.keeps ⟨some .trace, events⟩ event.level = true := by
      cases event.level <;> rfl
    unfold note
    rw [if_pos hkeeps]
  rw [hkept]
  show (events.push event).toList.filter _ = events.toList.filter _ ++ _
  rw [Array.toList_push, List.filter_append]
  cases hmiss : event.isMiss <;> simp [hmiss]

end Journal

/-! ## Changes of a session -/

namespace ClockSession

/-- The journal keeps every event, and its history is one of the clock. -/
structure Chronicled (session : ClockSession τ) : Prop where
  threshold : session.host.journal.threshold = some .trace
  chronicle : Chronicle session.host.journal.history session.clock.record.frames
    session.clock.record.refused session.clock.running

namespace Chronicled

variable {session session' : ClockSession τ}

/-- Only the journal matters, and what it tells of. -/
theorem congr (h : session.Chronicled) (hjournal : session'.host.journal = session.host.journal)
    (hframes : session'.clock.record.frames = session.clock.record.frames)
    (hrefused : session'.clock.record.refused = session.clock.record.refused)
    (hrunning : session'.clock.running = session.clock.running) : session'.Chronicled := by
  refine ⟨by rw [hjournal, h.threshold], ?_⟩
  rw [hjournal, hframes, hrefused, hrunning]
  exact h.chronicle

/-- A change of the clock is noted. -/
theorem noted {event : Event} (hmiss : event.isMiss = false)
    (hthreshold : session.host.journal.threshold = some .trace)
    (h : Chronicle (session.host.journal.history ++ [event]) session.clock.record.frames
      session.clock.record.refused session.clock.running) : (session.noted event).Chronicled := by
  refine ⟨(Journal.threshold_note _ event).trans hthreshold, ?_⟩
  show Chronicle (session.host.journal.note event).history _ _ _
  rw [Journal.history_note hthreshold, hmiss]
  exact h

/-- Missed deadlines are no part of a history. -/
theorem noted_miss {event : Event} (hmiss : event.isMiss = true) (h : session.Chronicled) :
    (session.noted event).Chronicled := by
  refine ⟨(Journal.threshold_note _ event).trans h.threshold, ?_⟩
  show Chronicle (session.host.journal.note event).history _ _ _
  rw [Journal.history_note h.threshold, hmiss, if_pos rfl, List.append_nil]
  exact h.chronicle

theorem refused (h : session.Chronicled) : session.refused.Chronicled :=
  noted rfl h.threshold h.chronicle.refused

theorem stopped (h : session.Chronicled) (hrunning : session.clock.running = true) :
    session.stopped.Chronicled :=
  noted rfl h.threshold (hrunning ▸ h.chronicle).stopped

variable [TimeSource τ]

theorem entered (h : session.Chronicled) : session.entered.2.Chronicled :=
  h.congr rfl rfl rfl rfl

theorem measured (h : session.Chronicled) : session.measured.Chronicled :=
  h.congr rfl rfl rfl rfl

theorem left (h : session.Chronicled) (began : Instant) : (session.left began).Chronicled :=
  noted rfl h.threshold (h.chronicle.finished _)

theorem started (h : session.Chronicled) (hstopped : session.clock.running = false) :
    session.started.Chronicled :=
  noted rfl h.threshold ((hstopped ▸ h.chronicle).started _ _ _)

theorem woken (h : session.Chronicled) (grid : FrameGrid) : (session.woken grid).Chronicled := by
  have hawake : ((session.awaited grid).2.onClock
      (·.wake (session.awaited grid).1.2 (session.awaited grid).1.1)).Chronicled :=
    h.congr (Host.journal_wait grid session.host) rfl rfl rfl
  unfold ClockSession.woken
  by_cases hmissed : (session.awaited grid).1.1 ≠ 0
  · rw [if_pos hmissed]
    exact hawake.noted_miss rfl
  · rw [if_neg hmissed]
    exact hawake

end Chronicled

end ClockSession

/-! ## Steps of a script -/

namespace Moment

variable [TimeSource τ] {m : Moment τ π}

theorem chronicled_request (agenda : List (Nat × ClockCall π)) (before : Nat)
    (h : m.session.Chronicled) : (m.request agenda before).session.Chronicled := by
  unfold request
  split
  · exact h.refused
  · exact h.entered

/-- **A call keeps the chronicle**, if probes look at the time alone. -/
theorem chronicled_make (act : π → StateM τ ρ) (call : ClockCall π) (h : m.session.Chronicled) :
    (m.make (fun what => Host.onTime (act what)) call).session.Chronicled := by
  have hmade := m.made (fun what => Host.onTime (act what)) call
  generalize m.make (fun what => Host.onTime (act what)) call = m' at hmade ⊢
  cases hmade with
  | nothing => exact h
  | start agenda hstopped => exact chronicled_request agenda 0 (h.started hstopped)
  | tick agenda hgrid => exact chronicled_request agenda 0 (h.woken _)
  | run agenda hstopped => exact chronicled_request agenda 0 (h.started hstopped)
  | frame agenda => exact chronicled_request agenda 0 h
  | stop hgrid => exact h.stopped (Clock.of_awaitedGrid_eq_some hgrid).1
  | record => exact h.measured
  | probe what => exact h.congr rfl rfl rfl rfl

/-- **A step keeps the chronicle.** -/
theorem chronicled_next (act : π → StateM τ ρ) (h : m.session.Chronicled) :
    (m.next fun what => Host.onTime (act what)).session.Chronicled := by
  obtain ⟨stack, session, ledger⟩ := m
  match stack with
  | [] => exact h
  | .calls _ [] :: _ => exact h
  | .calls _ (call :: _) :: _ => exact chronicled_make act call h
  | .frame _ _ _ _ (_ + 1) :: _ => exact h
  | .frame began _ _ _ 0 :: _ => exact h.left began
  | .loop agenda before :: _ =>
    cases hgrid : session.clock.awaitedGrid with
    | none =>
      rw [next_loop_of_none _ hgrid]
      exact h
    | some grid =>
      rw [next_loop_of_some _ hgrid]
      exact chronicled_request agenda before (h.woken grid)

/-- **The chronicle is kept** from the outset on. -/
theorem chronicled_after (act : π → StateM τ ρ) (pace : Pace) (time : τ)
    (script : List (ClockCall π)) (n : Nat) :
    ((outset pace (.traced time) script).after (fun what => Host.onTime (act what))
      n).session.Chronicled := by
  induction n with
  | zero => exact ⟨rfl, .new⟩
  | succ n ih => exact chronicled_next act ih

/-- **A script that returns** leads to the moment at which all its calls are made. -/
theorem leads_of_mapM (act : π → StateM (Host τ) ρ) (limit : Nat) (script : List (ClockCall π)) :
    ∀ (session session' : ClockSession τ) (replies : List (ClockReply ρ)),
      script.mapM (ClockCall.perform limit (acting act)) session = some (replies, session') →
      ∃ calls : Nat, ∀ ledger : Ledger,
        (⟨[.calls .outside script], session, ledger⟩ : Moment τ π).Leads act calls
          [.calls .outside []] session' := by
  induction script with
  | nil =>
    intro session session' replies h
    cases h
    exact ⟨0, .refl _ _⟩
  | cons call rest ih =>
    intro session session' replies h
    rw [List.mapM_cons] at h
    replace h : (ClockCall.perform limit (acting act) call session).bind (fun p =>
      (rest.mapM (ClockCall.perform limit (acting act)) p.2).bind fun q =>
        some (p.1 :: q.1, q.2)) = some (replies, session') := h
    obtain ⟨⟨reply, session₁⟩, hperform, hothers⟩ := Option.bind_eq_some_iff.mp h
    obtain ⟨⟨others, session₂⟩, hrest, heq⟩ := Option.bind_eq_some_iff.mp hothers
    cases heq
    have hreturned := returned_of_perform act limit call session session₁ reply hperform
    obtain ⟨calls, hleads⟩ := ih session₁ session₂ others hrest
    exact ⟨reply.calls + calls, fun ledger =>
      (hreturned.leads .outside rest [] ledger).trans hleads⟩

end Moment

/-! ## Main result -/

/-- What the journal of a session tells is true of its clock. -/
def ClockSession.Truthful (session : ClockSession τ) : Prop :=
  Tells session.host.journal.history session.clock.record.frames session.clock.record.refused
    session.clock.running

/-- **The journal of a clock tells its history.** At every moment of every script that a new clock
is given, and so after every script that returns, the finished frames are numbered from one on,
starts and stops take turns, each stop tells how many frames were finished before it, the clock is
running if and only if a start was the last of these, and as many frames were refused as the journal
tells. -/
theorem history_tells [TimeSource τ] (act : π → StateM τ ρ) (pace : Pace) (time : τ)
    (script : List (ClockCall π)) :
    (∀ n : Nat,
      let m := (Moment.outset pace (.traced time) script).after
        (fun what => Host.onTime (act what)) n
      m.session.Truthful ∧ m.session.clock.record.refused = m.ledger.refused) ∧
    ∀ (limit : Nat) (replies : List (ClockReply ρ)) (session : ClockSession τ),
      script.mapM (ClockCall.perform limit (acting fun what => Host.onTime (act what)))
        ⟨{ pace }, .traced time⟩ = some (replies, session) → session.Truthful := by
  have htells (n : Nat) := (Moment.chronicled_after act pace time script n).chronicle.tells
  refine ⟨fun n => ⟨htells n, ?_⟩, fun limit replies session hreturns => ?_⟩
  · have hconsistent : Moment.Consistent pace _ :=
      Moment.consistent_after (fun what => Host.onTime (act what)) (.traced time) script n
    obtain ⟨_, -, hagrees⟩ := hconsistent
    exact hagrees.refused
  · obtain ⟨_, hleads⟩ := Moment.leads_of_mapM _ limit script _ _ _ hreturns
    obtain ⟨n, _, hafter, -⟩ := hleads {}
    have hsession := htells n
    unfold Moment.outset at hsession
    rw [hafter] at hsession
    exact hsession

/-! ## Calls inside a frame -/

/-- A frame in which the clock is started and stopped, and a start in whose frame it is stopped and
started once more. -/
def entangled : List (ClockCall Empty) :=
  [.frame [(1, .start []), (2, .stop)], .start [(1, .stop), (2, .start [])], .stop]

/-- There are no probes. -/
def noProbe : Empty → StateM SimulatedTime Empty :=
  nofun

/-- The stops in the frames tell of 0 and 1 frames, since the frame in progress does not count. -/
theorem history_tells_entangled :
    ∃ (replies : List (ClockReply Empty)) (session : ClockSession SimulatedTime),
      entangled.mapM (ClockCall.perform 1 (acting fun what : Empty => Host.onTime (noProbe what)))
        ⟨{ pace := ⟨2, 1, by decide, by decide⟩ }, .traced {}⟩ = some (replies, session) ∧
      session.host.journal.history =
        [.clockStarted 2 2 1000, .frameRefused, .clockStopped 0, .frameFinished 1 2,
          .clockStarted 2 2 1000, .clockStopped 1, .clockStarted 2 2 1000, .frameRefused,
          .frameFinished 2 2, .clockStopped 2] ∧
      session.Truthful := by
  obtain ⟨-, hreturned⟩ := history_tells noProbe ⟨2, 1, by decide, by decide⟩
    ({} : SimulatedTime) entangled
  exact ⟨_, _, rfl, rfl, hreturned 1 _ _ rfl⟩

end Mos6502

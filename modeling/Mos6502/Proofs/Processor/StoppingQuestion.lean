import Mos6502.Proofs.Clock.Conduct
import Mos6502.Proofs.Processor.ArmedClock
import Mos6502.Proofs.Processor.Listed

/-!
# Questions that stop the clock

The question of a paced execution may stop the clock itself, by which it does not say that it is
satisfied. The frame in progress goes on then, with real steps and further questions. So two things
can end an execution in the same frame, a stopped clock and a step that fails or satisfies the
caller, and either can come first.

**The question** (`StoppingQuestion`). It stops the clock when it is asked for the `j`-th time, for
the first time, and does not start it again. What it does with the clock otherwise is its own
business, and so is what it goes by: of questions that the execution does not come to (`Asks`)
nothing is asked.

**The invariant** (`Going`, `Ended`). After each call of the handler, either nothing has come to an
end and the clock is running until the `j`-th call, or the outcome is fixed and the clock is
stopped.

Main result: `stopped_clock_finishes_frame`. Unless a step fails or satisfies the caller before,
all steps of the least number of frames that hold `j` steps are made.
-/

namespace Mos6502

open ClockM

namespace Processor

/-! ## The end of an execution, inside a frame -/

section Conclude

variable {τ : Type}

theorem threshold_stop {result : Except ClockFault Unit} {session session' : ClockSession τ}
    (h : Clock.stop session = some (result, session')) :
    session'.threshold = session.threshold := by
  rcases Clock.of_stop_eq_some h with rfl | rfl
  · rfl
  · exact session.threshold_noted _

/-- The clock is stopped, if it is not stopped already, and the result is the one given. -/
theorem conclude_comes (result : Except Fault Unit) {place : Place} {going : Bool}
    {session : ClockSession τ} (h : InCall place going session) :
    ∃ session' : ClockSession τ, conclude result session = some (result, session') ∧
      InCall place false session' ∧ session'.threshold = session.threshold := by
  obtain ⟨session', hstop, hcall⟩ := h.stop_comes
  exact ⟨session', bind_of_eq_some hstop, hcall, threshold_stop hstop⟩

end Conclude

variable {β τ τ' : Type} [Bus β] [TimeSource τ] [TimeSource τ']

/-! ## Questions -/

/-- An execution of `cpu` from `start` comes to a question about `here`, which is asked with `memo`
and `session` after `n` other questions. -/
inductive Asks {δ : Type} (done : Processor β → δ → ClockM τ (Bool × δ)) (cpu : Processor β)
    (initial : δ) (start : ClockSession τ) :
    (n : Nat) → (here : Processor β) → (memo : δ) → (session : ClockSession τ) → Prop
  | afterStep {n : Nat} {marked before here : Processor β} {memo : δ} {session : ClockSession τ}
    {host host' : Host τ} (hmark : cpu.markBegun.run start.host = (marked, host))
    (hcall : Clock.ReachesCall (pacedStep done) ⟨marked, initial, none⟩ (start.onto host) n
      ⟨before, memo, none⟩ session)
    (hstep : before.step.run session.host = ((.ok (), here), host')) :
    Asks done cpu initial start n here memo (session.onto host')

/-- A question that stops the clock of an execution of `cpu` from `start` when it is asked for the
`j`-th time, for the first time, and does not start it again. `After n` says what it has made of its
memo when it has been asked `n` times. -/
structure StoppingQuestion (cpu : Processor β) (plain : Host τ') (start : ClockSession τ) where
  Memo : Type
  done : Processor β → Memo → ClockM τ (Bool × Memo)
  initial : Memo
  j : Nat
  /-- What it answers after the `n`-th step. -/
  answer (n : Nat) : Bool
  After : Nat → Memo → Prop
  pos : 0 < j
  initially : After 0 initial
  /-- What it does after the `n + 1`-th step. It leaves alone what the host keeps. -/
  asked (n : Nat) (here : Processor β) (memo : Memo) (session : ClockSession τ) :
    Asks done cpu initial start n here memo session → After n memo →
    (cpu.afterSteps plain (n + 1)).1 = .ok () →
    here.untimed = (cpu.afterSteps plain (n + 1)).2.untimed →
    InCall (start.callPlace n) (decide (n < j)) session →
    Conduct (decide (n < j)) (done here memo) session (decide (n + 1 < j)) ∧
    ∀ (p : Bool × Memo) (session' : ClockSession τ), done here memo session = some (p, session') →
      p.1 = answer (n + 1) ∧ After (n + 1) p.2 ∧ session'.threshold = session.threshold

namespace StoppingQuestion

variable {cpu : Processor β} {plain : Host τ'} {start : ClockSession τ}
  (q : StoppingQuestion cpu plain start)

/-- Of steps in a row, the `k`-th is the first that fails or after which the answer is yes. -/
structure EndsAt (k : Nat) : Prop where
  pos : 0 < k
  before (i : Nat) (hpos : 0 < i) (hlt : i < k) :
    (cpu.afterSteps plain i).1 = .ok () ∧ q.answer i = false
  last : (cpu.afterSteps plain k).1 = .ok () → q.answer k = true

variable {q}

/-- A step after which the execution goes on is not the last. -/
theorem EndsAt.lt {k i : Nat} (h : q.EndsAt k)
    (hgoing : ∀ m, 0 < m → m ≤ i → (cpu.afterSteps plain m).1 = .ok () ∧ q.answer m = false) :
    i < k := by
  refine Nat.lt_of_not_le fun hle => ?_
  obtain ⟨hok, hno⟩ := hgoing k h.pos hle
  exact absurd ((h.last hok).symm.trans hno) nofun

theorem EndsAt.unique {k k' : Nat} (h : q.EndsAt k) (h' : q.EndsAt k') : k = k' := by
  have hle {k k' : Nat} (h : q.EndsAt k) (h' : q.EndsAt k') : k' ≤ k :=
    Nat.le_of_pred_lt (h.lt fun m hpos hm =>
      h'.before m hpos (Nat.lt_of_le_of_lt hm (Nat.pred_lt_of_lt h'.pos)))
  exact Nat.le_antisymm (hle h' h) (hle h h')

/-! ## The invariant -/

/-- A listed execution that has made `n` steps, those that are made without a clock. -/
structure Tracks (cpu : Processor β) (plain : Host τ') {δ : Type} (n : Nat)
    (run : ListedRun β δ) : Prop where
  place : run.listed.cpu.untimed = (cpu.afterSteps plain n).2.untimed
  made : run.listed.made.map MadeStep.result =
    (List.range n).map fun i => (cpu.afterSteps plain (i + 1)).1
  asked : run.asked.map untimed = cpu.successes plain n

variable (q)

/-- After `n` steps nothing has come to an end. -/
structure Going (n : Nat) (run : ListedRun β q.Memo) : Prop extends Tracks cpu plain n run where
  goes (m : Nat) (hpos : 0 < m) (hle : m ≤ n) :
    (cpu.afterSteps plain m).1 = .ok () ∧ q.answer m = false
  after : q.After n run.memo
  outcome : run.outcome = none

/-- The execution has ended with the `k`-th step. -/
structure Ended (k : Nat) (run : ListedRun β q.Memo) : Prop extends Tracks cpu plain k run where
  ends : q.EndsAt k
  outcome : run.outcome = some (cpu.afterSteps plain k).1

variable {q}

section Tracks

variable {δ : Type} {n : Nat} {listed : Listed β} {asked : List (Processor β)} {memo memo' : δ}
  {outcome outcome' : Option (Except Fault Unit)} {there : Processor β}

theorem Tracks.map_made (h : Tracks cpu plain n ⟨listed, asked, memo, outcome⟩)
    {result : Except Fault Unit} (hresult : (cpu.afterSteps plain (n + 1)).1 = result) :
    List.map MadeStep.result (listed.made ++ [⟨listed.cpu, result⟩]) =
      (List.range (n + 1)).map fun i => (cpu.afterSteps plain (i + 1)).1 := by
  rw [List.map_append, h.made, List.range_succ, List.map_append, List.map_singleton,
    List.map_singleton, hresult]

theorem Tracks.error (h : Tracks cpu plain n ⟨listed, asked, memo, outcome⟩) {fault : Fault}
    (hresult : (cpu.afterSteps plain (n + 1)).1 = .error fault)
    (hthere : there.untimed = (cpu.afterSteps plain (n + 1)).2.untimed) :
    Tracks cpu plain (n + 1)
      ⟨⟨there, listed.made ++ [⟨listed.cpu, .error fault⟩]⟩, asked, memo', outcome'⟩ := by
  refine ⟨hthere, h.map_made hresult, ?_⟩
  rw [successes_succ, hresult, ← h.asked]
  exact (List.append_nil _).symm

theorem Tracks.ok (h : Tracks cpu plain n ⟨listed, asked, memo, outcome⟩)
    (hresult : (cpu.afterSteps plain (n + 1)).1 = .ok ())
    (hthere : there.untimed = (cpu.afterSteps plain (n + 1)).2.untimed) :
    Tracks cpu plain (n + 1)
      ⟨⟨there, listed.made ++ [⟨listed.cpu, .ok ()⟩]⟩, asked ++ [there], memo', outcome'⟩ := by
  refine ⟨hthere, h.map_made hresult, ?_⟩
  rw [successes_succ, hresult, ← h.asked, ← hthere]
  exact List.map_append

end Tracks

/-- The state in which an execution begins. -/
def beginning {δ : Type} (marked : Processor β) (initial : δ) : ListedRun β δ :=
  ⟨⟨marked, []⟩, [], initial, none⟩

/-- **A call of the handler before the end.** Its step is the next one. If the step fails or the
answer is yes, the execution has ended and the clock is stopped, whether or not the question has
stopped it before. -/
theorem pacedStep_of_going {n : Nat} {marked : Processor β} {host : Host τ}
    (hmark : cpu.markBegun.run start.host = (marked, host)) {run : ListedRun β q.Memo}
    {session : ClockSession τ} (hreached : Clock.ReachesCall (Listed.pacedStep q.done)
      (beginning marked q.initial) (start.onto host) n run session)
    (hrun : q.Going n run)
    (hcall : InCall (start.callPlace n) (decide (n < q.j)) session)
    (hkeeps : session.threshold = plain.journal.threshold) :
    ∃ (run' : ListedRun β q.Memo) (session' : ClockSession τ),
      Listed.pacedStep q.done run session = some (run', session') ∧
      session'.threshold = session.threshold ∧
      (q.Going (n + 1) run' ∧ InCall (start.callPlace n) (decide (n + 1 < q.j)) session' ∨
        q.Ended (n + 1) run' ∧ InCall (start.callPlace n) false session') := by
  obtain ⟨listed, asked, memo, outcome⟩ := run
  obtain ⟨htracks, hgoes, hafter, rfl⟩ := hrun
  obtain ⟨there, host', hstep, hthere, hthreshold⟩ := step_of_untimed_eq htracks.place hkeeps
  have hcall' : InCall (start.callPlace n) (decide (n < q.j)) (session.onto host') :=
    ⟨hcall.running, hcall.armed, hcall.place⟩
  have hends (hlast : (cpu.afterSteps plain (n + 1)).1 = .ok () → q.answer (n + 1) = true) :
      q.EndsAt (n + 1) :=
    ⟨Nat.succ_pos n, fun i hpos hlt => hgoes i hpos (Nat.le_of_lt_succ hlt), hlast⟩
  cases hresult : (cpu.afterSteps plain (n + 1)).1 with
  | error fault =>
    rw [hresult] at hstep
    obtain ⟨session', hconclude, hstopped, hsame⟩ := conclude_comes (.error fault) hcall'
    refine ⟨⟨⟨there, _⟩, asked, memo, some (.error fault)⟩, session', ?_, hsame.trans hthreshold,
      .inr ⟨⟨htracks.error hresult hthere, hends ?_, ?_⟩, hstopped⟩⟩
    · rw [Listed.pacedStep_of_error _ hstep, hconclude]
      rfl
    · rw [hresult]
      exact nofun
    · rw [hresult]
  | ok _ =>
    rw [hresult] at hstep
    have hasks : Asks q.done cpu q.initial start n there memo (session.onto host') :=
      .afterStep hmark ((Listed.projects_pacedStep q.done).reachesCall hreached) hstep
    obtain ⟨hconduct, hanswers⟩ := q.asked n there memo _ hasks hafter hresult hthere hcall'
    obtain ⟨⟨answer, memo'⟩, session₁, hdone, hcall₁⟩ := hconduct.comes rfl hcall'
    obtain ⟨hanswer, hafter', hkept⟩ := hanswers _ _ hdone
    have hthreshold₁ : session₁.threshold = session.threshold := hkept.trans hthreshold
    have htracks' {outcome} : Tracks cpu plain (n + 1) ⟨⟨there,
        listed.made ++ [⟨listed.cpu, .ok ()⟩]⟩, asked ++ [there], memo', outcome⟩ :=
      htracks.ok hresult hthere
    rw [Listed.pacedStep_of_ok _ hstep, hdone]
    cases answer with
    | false =>
      refine ⟨_, session₁, rfl, hthreshold₁, .inl ⟨⟨htracks', fun m hpos hle => ?_, hafter', rfl⟩,
        hcall₁⟩⟩
      rcases Nat.lt_or_eq_of_le hle with hlt | rfl
      · exact hgoes m hpos (Nat.le_of_lt_succ hlt)
      · exact ⟨hresult, hanswer.symm⟩
    | true =>
      obtain ⟨session', hconclude, hstopped, hsame⟩ := conclude_comes (.ok ()) hcall₁
      refine ⟨⟨⟨there, _⟩, _, memo', some (.ok ())⟩, session', ?_, hsame.trans hthreshold₁,
        .inr ⟨⟨htracks', hends fun _ => hanswer.symm, ?_⟩, hstopped⟩⟩
      · show (conclude (.ok ()) session₁).map _ = _
        rw [hconclude]
        rfl
      · rw [hresult]

/-! ## Runs -/

/-- What `i` calls of the handler have made of an execution. -/
def AfterCalls (q : StoppingQuestion cpu plain start) (i : Nat) (run : ListedRun β q.Memo) : Prop :=
  q.Going i run ∨ ∃ k ≤ i, q.Ended k run

/-- The call in which the clock is stopped: by the step that ends the execution, or by the question
when it is asked for the `j`-th time. -/
structure StopsIn (q : StoppingQuestion cpu plain start) (s : Nat) : Prop where
  pos : 0 < s
  le : s ≤ q.j
  eq_or : s = q.j ∨ q.EndsAt s
  le_of_endsAt (k : Nat) (h : q.EndsAt k) : s ≤ k

theorem exists_stopsIn (q : StoppingQuestion cpu plain start) : ∃ s, q.StopsIn s := by
  by_cases h : ∃ k ≤ q.j, q.EndsAt k
  · obtain ⟨k, hle, hends⟩ := h
    exact ⟨k, hends.pos, hle, .inr hends, fun k' hends' => Nat.le_of_eq (hends.unique hends')⟩
  · refine ⟨q.j, q.pos, Nat.le_refl _, .inl rfl, fun k hends => ?_⟩
    exact Nat.le_of_not_le fun hle => h ⟨k, hle, hends⟩

/-- As long as the execution goes on, the clock is running until the question stops it. -/
theorem StopsIn.lt_iff {s i : Nat} (h : q.StopsIn s) {run : ListedRun β q.Memo}
    (hgoing : q.Going i run) : i < s ↔ i < q.j := by
  refine ⟨fun hlt => Nat.lt_of_lt_of_le hlt h.le, fun hlt => ?_⟩
  rcases h.eq_or with rfl | hends
  · exact hlt
  · exact hends.lt hgoing.goes

theorem StopsIn.inCall {s i : Nat} (h : q.StopsIn s) {run : ListedRun β q.Memo}
    (hgoing : q.Going i run) {session : ClockSession τ} {place : Place}
    (hstanding : Clock.Standing s i session.clock) (hplace : session.place = place) :
    InCall place (decide (i < q.j)) session := by
  rw [← decide_eq_decide.mpr (h.lt_iff hgoing)]
  exact .of_standing hstanding hplace

theorem StopsIn.standing {s i : Nat} (h : q.StopsIn s) {run : ListedRun β q.Memo}
    (hgoing : q.Going i run) {session : ClockSession τ} {place : Place}
    (hcall : InCall place (decide (i < q.j)) session) : Clock.Standing s i session.clock := by
  rw [← decide_eq_decide.mpr (h.lt_iff hgoing)] at hcall
  exact hcall.standing

/-- **The handler stops the clock** in the call in which the question does, or the execution
ends. -/
theorem stops_pacedStep {s : Nat} (h : q.StopsIn s) {marked : Processor β} {host : Host τ}
    (hmark : cpu.markBegun.run start.host = (marked, host)) :
    Clock.Stops (Listed.pacedStep q.done) (beginning marked q.initial) (start.onto host) s
      fun i run level => q.AfterCalls i run ∧ level = plain.journal.threshold := by
  intro i run session hreached hstage
  obtain ⟨⟨hafter, hkeeps⟩, hstanding, hplace⟩ := hstage
  rcases hafter with hgoing | ⟨k, hk, hended⟩
  · obtain ⟨run', session', hcall, hsame, hnext⟩ :=
      pacedStep_of_going hmark hreached hgoing (h.inCall hgoing hstanding hplace) hkeeps
    have hkeeps' : session'.threshold = plain.journal.threshold := hsame.trans hkeeps
    refine ⟨run', session', hcall, ?_⟩
    rcases hnext with ⟨hgoing', hcall'⟩ | ⟨hended', hcall'⟩
    · exact ⟨⟨.inl hgoing', hkeeps'⟩, h.standing hgoing' hcall', hcall'.place⟩
    · have hle := h.le_of_endsAt _ hended'.ends
      exact ⟨⟨.inr ⟨i + 1, Nat.le_refl _, hended'⟩, hkeeps'⟩,
        ⟨fun hlt => absurd hlt (Nat.not_lt.mpr hle), fun _ => hcall'.running⟩, hcall'.place⟩
  · have hle := Nat.le_trans (h.le_of_endsAt k hended.ends) hk
    refine ⟨run, session, ?_, ⟨.inr ⟨k, Nat.le_succ_of_le hk, hended⟩, hkeeps⟩,
      ⟨fun hlt => absurd hlt (by omega), fun _ => hstanding.stopped hle⟩, hplace⟩
    obtain ⟨listed, asked, memo, outcome⟩ := run
    obtain rfl : outcome = _ := hended.outcome
    exact Listed.pacedStep_of_concluded _ _

/-- When the frame in which the clock was stopped is over, the execution has ended if it could, and
otherwise all steps of the frames are made that hold `j` steps. -/
theorem AfterCalls.of_stopsIn {s J : Nat} {pace : Pace} {run : ListedRun β q.Memo}
    (hafter : q.AfterCalls (pace.framesFor s * pace.calls) run) (h : q.StopsIn s)
    (hJ : J = pace.framesFor q.j * pace.calls) :
    (∀ k ≤ J, q.EndsAt k → q.Ended k run) ∧ ((∀ k ≤ J, ¬q.EndsAt k) → q.Going J run) := by
  have hfit := pace.le_framesFor_mul s
  refine ⟨fun k hk hends => ?_, fun hnever => ?_⟩
  · rcases hafter with hgoing | ⟨k', -, hended⟩
    · -- The clock was stopped by the question, and nothing has ended in its frame.
      rcases h.eq_or with rfl | hends'
      · exact absurd (hends.lt hgoing.goes) (Nat.not_lt.mpr (hJ ▸ hk))
      · exact absurd (hends'.lt hgoing.goes) (Nat.not_lt.mpr hfit)
    · exact hended.ends.unique hends ▸ hended
  · obtain rfl : s = q.j := h.eq_or.resolve_right
      (hnever s (hJ ▸ Nat.le_trans h.le (pace.le_framesFor_mul q.j)))
    rw [← hJ] at hafter
    exact hafter.resolve_right fun ⟨k, hk, hended⟩ => hnever k hk hended.ends

/-! ## What is left of an execution -/

theorem Tracks.length_made {δ : Type} {n : Nat} {run : ListedRun β δ} (h : Tracks cpu plain n run) :
    run.listed.made.length = n := by
  rw [← List.length_map MadeStep.result, h.made, List.length_map, List.length_range]

theorem Going.made_ok {n : Nat} {run : ListedRun β q.Memo} (h : q.Going n run) :
    ∀ step ∈ run.listed.made, step.result = .ok () := by
  intro step hstep
  have hresult := List.mem_map_of_mem (f := MadeStep.result) hstep
  rw [h.made] at hresult
  obtain ⟨i, hi, hstep⟩ := List.mem_map.mp hresult
  rw [← hstep]
  exact (h.goes (i + 1) (Nat.succ_pos i) (List.mem_range.mp hi)).1

/-- The caller was asked after each step. -/
theorem Going.asked_eq {n : Nat} {run : ListedRun β q.Memo} (h : q.Going n run) :
    run.asked.map untimed =
      (List.range n).map fun i => (cpu.afterSteps plain (i + 1)).2.untimed := by
  have hall : (List.range n).filter (fun i => (cpu.afterSteps plain (i + 1)).1.isOk) =
      List.range n := by
    refine List.filter_eq_self.mpr fun i hi => ?_
    rw [(h.goes (i + 1) (Nat.succ_pos i) (List.mem_range.mp hi)).1]
    rfl
  rw [h.asked, successes, hall]

omit [TimeSource τ] in
theorem unclocked_afterSteps (cpu : Processor β) (plain : Host τ') {k : Nat} (hk : 0 < k) :
    Unclocked (cpu.afterSteps plain k).1 := by
  obtain ⟨n, rfl⟩ := Nat.exists_eq_add_one.mpr hk
  obtain ⟨now, hstep⟩ := cpu.afterSteps_succ plain n
  rw [hstep]
  exact unclocked_stepAt _ _ _

/-- An execution whose question stops the clock, until its last frame is over. -/
theorem paceUntil_eq_some (q : StoppingQuestion cpu plain start)
    (hstopped : start.clock.running = false) (hidle : start.clock.inFrame = false)
    (hkeeps : plain.journal.threshold = start.host.journal.threshold) {limit : Nat}
    (hlimit : start.clock.pace.framesFor q.j ≤ limit) :
    ∃ (s : Nat) (run' : ListedRun β q.Memo) (session' : ClockSession τ), q.StopsIn s ∧
      Listed.paceUntil limit q.done ⟨cpu, []⟩ q.initial start =
        some ((run'.outcome.getD (.ok ()), run'), session') ∧
      q.AfterCalls (start.clock.pace.framesFor s * start.clock.pace.calls) run' ∧
      session'.clock.running = false ∧ session'.clock.inFrame = false := by
  obtain ⟨s, hs⟩ := q.exists_stopsIn
  obtain ⟨marked, host', hmark, ⟨begun, hmarked⟩, hthreshold⟩ := cpu.run_markBegun start.host
  have hstart : q.Going 0 (beginning marked q.initial) := by
    rw [hmarked]
    exact ⟨⟨rfl, rfl, rfl⟩, fun m hpos hle => absurd hle (Nat.not_le.mpr hpos), q.initially, rfl⟩
  have hframes : start.clock.pace.framesFor s ≤ limit :=
    Nat.le_trans (Nat.div_le_div_right
      (Nat.sub_le_sub_right (Nat.add_le_add_right hs.le _) 1)) hlimit
  obtain ⟨run', session', hrun, ⟨hafter, -⟩, hrunning, hplace⟩ :=
    Clock.run_of_stops (stops_pacedStep hs hmark) hs.pos
      ⟨.inl hstart, hthreshold.trans hkeeps.symm⟩ hstopped hidle hframes
  refine ⟨s, run', session', hs, ?_, hafter, hrunning, (congrArg Place.inFrame hplace).trans hidle⟩
  rw [Listed.paceUntil_eq _ _ hmark]
  show (Clock.run limit (Listed.pacedStep q.done) (beginning marked q.initial) _).map _ = _
  rw [hrun]
  rfl

/-- **A clock that is stopped by a question finishes its frame with real steps.**

Let the clock be stopped by the question when it is asked for the `j`-th time, and let `J` be the
steps of the least number of frames that hold `j` steps. If the `k`-th step is the first that fails
or satisfies the caller, and `k` is at most `J`, then `k` steps are made and the result is that of
the last, no fault of the clock. Otherwise `J` steps are made, all of them succeed, the caller is
asked after each, and the result is no fault. In both cases the clock ends stopped and idle. -/
theorem stopped_clock_finishes_frame (q : StoppingQuestion cpu plain start)
    (hstopped : start.clock.running = false) (hidle : start.clock.inFrame = false)
    (hkeeps : plain.journal.threshold = start.host.journal.threshold) (limit : Nat)
    (hlimit : start.clock.pace.framesFor q.j ≤ limit) {J : Nat}
    (hJ : J = start.clock.pace.framesFor q.j * start.clock.pace.calls) :
    ∃ (result : Except Fault Unit) (run' : ListedRun β q.Memo) (session' : ClockSession τ),
      Listed.paceUntil limit q.done ⟨cpu, []⟩ q.initial start =
        some ((result, run'), session') ∧
      paceUntil limit q.done cpu q.initial start =
        some ((result, run'.listed.cpu, run'.memo), session') ∧
      (∀ k ≤ J, q.EndsAt k → result = (cpu.afterSteps plain k).1 ∧ Unclocked result ∧
        run'.listed.made.length = k ∧ Tracks cpu plain k run') ∧
      ((∀ k ≤ J, ¬q.EndsAt k) → result = .ok () ∧ run'.listed.made.length = J ∧
        (∀ step ∈ run'.listed.made, step.result = .ok ()) ∧
        run'.asked.map untimed =
          (List.range J).map (fun i => (cpu.afterSteps plain (i + 1)).2.untimed) ∧
        Tracks cpu plain J run' ∧ q.After J run'.memo) ∧
      session'.clock.running = false ∧ session'.clock.inFrame = false := by
  obtain ⟨s, run', session', hs, hpace, hafter, hrunning, hinFrame⟩ :=
    q.paceUntil_eq_some hstopped hidle hkeeps hlimit
  obtain ⟨hends, hgoes⟩ := hafter.of_stopsIn hs hJ
  refine ⟨_, run', session', hpace, ?_, fun k hk hend => ?_, fun hnever => ?_, hrunning, hinFrame⟩
  · rw [← Listed.map_paceUntil limit q.done ⟨cpu, []⟩, hpace]
    rfl
  · obtain ⟨htracks, -, houtcome⟩ := hends k hk hend
    rw [houtcome]
    exact ⟨rfl, unclocked_afterSteps cpu plain hend.pos, htracks.length_made, htracks⟩
  · have hgoing := hgoes hnever
    rw [hgoing.outcome]
    exact ⟨rfl, hgoing.length_made, hgoing.made_ok, hgoing.asked_eq, hgoing.toTracks, hgoing.after⟩

/-! ## A question that only stops the clock -/

/-- A question that stops the clock when it is asked for the first time, and is never satisfied. Its
memo is the number of the question. -/
def stoppingAtOnce (_ : Processor Memory) (n : Nat) : ClockM SimulatedTime (Bool × Nat) := do
  if n = 1 then
    let _ ← Clock.stop
  return (false, n + 1)

theorem conduct_stoppingAtOnce (n : Nat) (here : Processor Memory)
    (session : ClockSession SimulatedTime) :
    Conduct (decide (n < 1)) (stoppingAtOnce here (n + 1)) session (decide (n + 1 < 1)) := by
  unfold stoppingAtOnce
  cases n with
  | zero => exact .bind .stop fun _ _ _ => .pure
  | succ n =>
    rw [if_neg (by omega), decide_eq_false (by omega : ¬n + 1 < 1),
      decide_eq_false (by omega : ¬n + 1 + 1 < 1)]
    exact .pure

theorem of_stoppingAtOnce_eq_some {here : Processor Memory} {n : Nat} {p : Bool × Nat}
    {session session' : ClockSession SimulatedTime}
    (h : stoppingAtOnce here n session = some (p, session')) :
    p = (false, n + 1) ∧ session'.threshold = session.threshold := by
  unfold stoppingAtOnce at h
  by_cases hfirst : n = 1
  · rw [if_pos hfirst] at h
    obtain ⟨⟨stopped, session₁⟩, hstop, hrest⟩ := Option.bind_eq_some_iff.mp h
    cases hrest
    exact ⟨rfl, threshold_stop hstop⟩
  · rw [if_neg hfirst] at h
    cases h
    exact ⟨rfl, rfl⟩

/-- The question, asked of the program of two instructions. -/
def interruption (start : ClockSession SimulatedTime) :
    StoppingQuestion shortProgram slowClock.host start where
  Memo := Nat
  done := stoppingAtOnce
  initial := 1
  j := 1
  answer _ := false
  After n memo := memo = n + 1
  pos := Nat.one_pos
  initially := rfl
  asked n here memo session _ hmemo _ _ _ := by
    subst hmemo
    refine ⟨conduct_stoppingAtOnce n here session, fun p session' hdone => ?_⟩
    obtain ⟨rfl, hkept⟩ := of_stoppingAtOnce_eq_some hdone
    exact ⟨rfl, rfl, hkept⟩

theorem endsAt_interruption (start : ClockSession SimulatedTime) :
    (interruption start).EndsAt 3 := by
  refine ⟨by decide, fun i hpos hlt => ⟨?_, rfl⟩, fun h => ?_⟩
  · obtain rfl | rfl : i = 1 ∨ i = 2 := by omega
    · rfl
    · rfl
  · cases h

/-- The slow clock, with four calls a frame. -/
def fourCalls : ClockSession SimulatedTime where
  clock := { pace := { slowClock.clock.pace with target := 4, target_ne_zero := by decide } }
  host := slowClock.host

/-- Stopped after the first step, a clock of two calls a frame goes on to the second step. One of
four calls a frame goes on to the third, which fails and is the last. -/
theorem stopped_clock_finishes_frame_shortProgram :
    (∃ (run' : ListedRun Memory Nat) (session' : ClockSession SimulatedTime),
      Listed.paceUntil 1 stoppingAtOnce ⟨shortProgram, []⟩ 1 slowClock =
        some ((.ok (), run'), session') ∧
      run'.listed.made.length = 2 ∧ run'.memo = 3 ∧ session'.clock.running = false) ∧
    ∃ (fault : Fault) (run' : ListedRun Memory Nat) (session' : ClockSession SimulatedTime),
      Listed.paceUntil 1 stoppingAtOnce ⟨shortProgram, []⟩ 1 fourCalls =
        some ((.error fault, run'), session') ∧
      run'.listed.made.length = 3 ∧ session'.clock.running = false := by
  obtain ⟨result, run', session', hpace, -, -, hgoes, hrunning, -⟩ :=
    stopped_clock_finishes_frame (interruption slowClock) rfl rfl rfl 1 (by decide) rfl
  obtain ⟨rfl, hmade, -, -, -, hmemo⟩ :=
    hgoes fun k hk h => absurd (h.unique (endsAt_interruption slowClock) ▸ hk) (by decide)
  obtain ⟨result', run'', session'', hpace', -, hends, -, hrunning', -⟩ :=
    stopped_clock_finishes_frame (interruption fourCalls) rfl rfl rfl 1 (by decide) rfl
  obtain ⟨rfl, -, hmade', -⟩ := hends 3 (by decide) (endsAt_interruption fourCalls)
  exact ⟨⟨run', session', hpace, hmade, hmemo, hrunning⟩, _, run'', session'', hpace', hmade',
    hrunning'⟩

end StoppingQuestion

end Processor

end Mos6502

import Mos6502.Proofs.Clock.Shadow
import Mos6502.Proofs.Processor.ArmedClock

/-!
# Executions that return without a fault

What a caller knows when a paced execution returns without a fault. The result comes from one of
three places: the clock's own run, the outcome that the handler fixed, and a default where it fixed
none.

**Notes** (`noting`). To tell what was asked, a shadow of the execution notes each question, with
the answer and with whether the clock was running before and after it (`Question`). Otherwise it is
the same execution.

**The invariant** (`Noted`). As long as no outcome is fixed, the clock is running, unless a question
stopped it after something had been executed. An outcome is fixed with its reason (`Concluded`).

Main result: `finished_unless_running`. On a clock that was stopped, an execution without a fault is
finished. On a clock that was running already, nothing is executed and there is no fault either.
-/

namespace Mos6502

namespace Clock

variable {τ σ : Type} [TimeSource τ]

/-- A run begins with a grid of its own, whatever grid a stopped clock has. -/
theorem run_disarm {session : ClockSession τ} (h : session.clock.running = false) (limit : Nat)
    (handler : σ → ClockM τ σ) (state : σ) :
    run limit handler state (session.onClock disarm) = run limit handler state session := by
  have hdisarmed : (session.onClock disarm).clock.running = false := rfl
  rw [run_eq, run_eq, start_of_stopped _ _ h, start_of_stopped _ _ hdisarmed]
  rfl

end Clock

namespace Processor

open Clock ClockM

variable {β τ δ : Type}

/-! ## Questions -/

/-- A question that was asked about a processor, and whether the clock was running before and after
it. -/
structure Question (β : Type) where
  cpu : Processor β
  answer : Bool
  runningBefore : Bool
  runningAfter : Bool

/-- The question was asked, in a session with this clock, and answered so. -/
def Question.Asked (done : Processor β → δ → ClockM τ (Bool × δ)) (q : Question β) : Prop :=
  ∃ (memo memo' : δ) (session session' : ClockSession τ),
    done q.cpu memo session = some ((q.answer, memo'), session') ∧
    session.clock.running = q.runningBefore ∧ session'.clock.running = q.runningAfter

/-- Who never wants to stop leaves the clock alone. -/
theorem Question.Asked.never {q : Question β}
    (h : q.Asked (τ := τ) fun _ () => return (false, ())) :
    q.answer = false ∧ q.runningAfter = q.runningBefore := by
  obtain ⟨_, _, session, session', hno, hbefore, hafter⟩ := h
  obtain ⟨hanswer, rfl⟩ := Prod.mk.inj (Option.some.inj hno)
  exact ⟨(Prod.mk.inj hanswer).1.symm, hafter.symm.trans hbefore⟩

/-- Ask, and note the question behind the memo. -/
def noting (done : Processor β → δ → ClockM τ (Bool × δ)) (cpu : Processor β)
    (memo : δ × List (Question β)) : ClockM τ (Bool × (δ × List (Question β))) := do
  let before ← getClock
  let (answer, memo') ← done cpu memo.1
  let after ← getClock
  return (answer, memo', memo.2 ++ [⟨cpu, answer, before.running, after.running⟩])

variable {done : Processor β → δ → ClockM τ (Bool × δ)}

theorem noting_of_eq_some {cpu : Processor β} {memo memo' : δ} {session session' : ClockSession τ}
    {answer : Bool} (h : done cpu memo session = some ((answer, memo'), session'))
    (log : List (Question β)) :
    noting done cpu (memo, log) session = some ((answer, memo',
      log ++ [⟨cpu, answer, session.clock.running, session'.clock.running⟩]), session') := by
  show (done cpu memo session).bind _ = _
  rw [h]
  rfl

/-! ## Reasons for an outcome -/

/-- Something was executed, and the last question was about what is left and answered with yes. -/
structure Satisfied (cpu cpu' : Processor β) (log : List (Question β)) : Prop where
  executed : cpu.record.instructions < cpu'.record.instructions
  last : ∃ q : Question β, log.getLast? = some q ∧ q.cpu = cpu' ∧ q.answer = true

/-- Something was executed, and a question stopped the clock. -/
structure CutShort (cpu cpu' : Processor β) (log : List (Question β)) : Prop where
  executed : cpu.record.instructions < cpu'.record.instructions
  stopped : ∃ q ∈ log, q.runningBefore = true ∧ q.runningAfter = false

variable [Bus β] [TimeSource τ]

/-- A step failed with the fault and left the processor. It was halted before if `cpu` was. -/
def FailedWith (τ : Type) [TimeSource τ] (cpu cpu' : Processor β) (fault : Fault) : Prop :=
  ∃ (before : Processor β) (host host' : Host τ), before.halted = cpu.halted ∧
    before.step.run host = ((.error fault, cpu'), host')

/-- Why an execution of `cpu` that comes to `cpu'` has an outcome. -/
inductive Concluded (τ : Type) [TimeSource τ] (cpu cpu' : Processor β) (log : List (Question β)) :
    Except Fault Unit → Prop
  | satisfied (h : Satisfied cpu cpu' log) : Concluded τ cpu cpu' log (.ok ())
  | failed {fault : Fault} (h : FailedWith τ cpu cpu' fault) :
    Concluded τ cpu cpu' log (.error fault)
  | clock (fault : ClockFault) : Concluded τ cpu cpu' log (.error (.clock fault))

omit [Bus β] [TimeSource τ] in
theorem conclude_eq_some {result result' : Except Fault Unit} {session session' : ClockSession τ}
    (h : conclude result session = some (result', session')) :
    result' = result ∨ ∃ fault : ClockFault, result' = .error (.clock fault) := by
  obtain ⟨⟨stopped, session₁⟩, -, hrest⟩ := Option.bind_eq_some_iff.mp h
  cases stopped with
  | ok _ =>
    cases hrest
    exact .inl rfl
  | error fault =>
    cases result with
    | ok _ =>
      cases hrest
      exact .inr ⟨fault, rfl⟩
    | error _ =>
      cases hrest
      exact .inr ⟨fault, rfl⟩

theorem Concluded.conclude {cpu cpu' : Processor β} {log : List (Question β)}
    {result result' : Except Fault Unit} {session session' : ClockSession τ}
    (h : Concluded τ cpu cpu' log result)
    (hconclude : Processor.conclude result session = some (result', session')) :
    Concluded τ cpu cpu' log result' := by
  rcases conclude_eq_some hconclude with rfl | ⟨fault, rfl⟩
  · exact h
  · exact .clock fault

/-! ## Steps -/

theorem of_step_ok {cpu cpu' : Processor β} {host host' : Host τ}
    (h : cpu.step.run host = ((.ok (), cpu'), host')) :
    cpu'.record.instructions = cpu.record.instructions + 1 ∧ cpu'.halted = cpu.halted := by
  obtain ⟨_, hstep, -⟩ := cpu.run_step host
  obtain ⟨hat, -⟩ := Prod.mk.inj (h.symm.trans hstep)
  cases hrun : cpu.halted with
  | true =>
    rw [cpu.stepAt_of_halted _ _ hrun] at hat
    cases hat
  | false =>
    cases hget : cpu.instructionSet.get cpu.opcode with
    | none =>
      rw [cpu.stepAt_of_undefined _ _ hrun hget] at hat
      cases hat
    | some instruction =>
      rw [cpu.stepAt_of_defined _ _ hrun hget] at hat
      obtain rfl : cpu' = _ := congrArg Prod.snd hat
      cases host.tracing with
      | false => exact ⟨rfl, hrun⟩
      | true => exact ⟨rfl, hrun⟩

theorem halted_of_step_error {cpu cpu' : Processor β} {host host' : Host τ} {fault : Fault}
    (h : cpu.step.run host = ((.error fault, cpu'), host')) : cpu'.halted = true := by
  obtain ⟨_, hstep, -⟩ := cpu.run_step host
  obtain ⟨hat, -⟩ := Prod.mk.inj (h.symm.trans hstep)
  cases hrun : cpu.halted with
  | true =>
    rw [cpu.stepAt_of_halted _ _ hrun] at hat
    cases hat
    exact hrun
  | false =>
    cases hget : cpu.instructionSet.get cpu.opcode with
    | none =>
      rw [cpu.stepAt_of_undefined _ _ hrun hget] at hat
      obtain rfl : cpu' = _ := congrArg Prod.snd hat
      rfl
    | some instruction =>
      rw [cpu.stepAt_of_defined _ _ hrun hget] at hat
      cases hat

/-! ## The invariant -/

/-- After some calls of its handler, an execution that began with `cpu`, and its shadow. -/
structure Noted (done : Processor β → δ → ClockM τ (Bool × δ)) (cpu : Processor β)
    (run : PacedRun β δ) (shadow : PacedRun β (δ × List (Question β))) (running : Bool) :
    Prop where
  cpu_eq : shadow.cpu = run.cpu
  memo_eq : shadow.memo.1 = run.memo
  outcome_eq : shadow.outcome = run.outcome
  asked : ∀ q ∈ shadow.memo.2, q.Asked done
  going : run.outcome = none → cpu.record.instructions ≤ run.cpu.record.instructions ∧
    run.cpu.halted = cpu.halted ∧ (running = false → CutShort cpu run.cpu shadow.memo.2)
  concluded : ∀ result, run.outcome = some result →
    Concluded τ cpu run.cpu shadow.memo.2 result

/-- **A call of the handler** is shadowed, and keeps the invariant. -/
theorem shadows_pacedStep (done : Processor β → δ → ClockM τ (Bool × δ)) (cpu : Processor β) :
    Shadows (Noted done cpu) (pacedStep done) (pacedStep (noting done)) := by
  rintro ⟨here, memo, outcome⟩ run₁ ⟨here', ⟨memo', log⟩, outcome'⟩ session session₁ hnoted hcall
  obtain ⟨hcpu, hmemo, houtcome, hasked, hgoing, hconcluded⟩ := hnoted
  obtain rfl : here' = here := hcpu
  obtain rfl : memo' = memo := hmemo
  obtain rfl : outcome' = outcome := houtcome
  cases outcome' with
  | some result =>
    cases hcall
    exact ⟨_, rfl, rfl, rfl, rfl, hasked, hgoing, hconcluded⟩
  | none =>
    obtain ⟨hle, hhalted, hcut⟩ := hgoing rfl
    generalize hstep : here'.step.run session.host = p
    obtain ⟨⟨result, there⟩, host⟩ := p
    cases result with
    | error fault =>
      rw [pacedStep_of_error done hstep] at hcall
      rw [pacedStep_of_error (noting done) hstep]
      obtain ⟨⟨result, session₂⟩, hconclude, hended⟩ := Option.map_eq_some_iff.mp hcall
      cases hended
      rw [hconclude]
      have hfailed : Concluded τ cpu there log (.error fault) :=
        .failed ⟨here', session.host, host, hhalted, hstep⟩
      refine ⟨_, rfl, rfl, rfl, rfl, hasked, nofun, ?_⟩
      intro result hresult
      cases hresult
      exact hfailed.conclude hconclude
    | ok _ =>
      obtain ⟨hinstructions, hhalted'⟩ := of_step_ok hstep
      rw [pacedStep_of_ok done hstep] at hcall
      rw [pacedStep_of_ok (noting done) hstep]
      obtain ⟨⟨⟨answer, memo₁⟩, session₂⟩, hdone, hrest⟩ := Option.bind_eq_some_iff.mp hcall
      rw [noting_of_eq_some hdone]
      have hasked' : ∀ q ∈ log ++ [⟨there, answer, session.clock.running, session₂.clock.running⟩],
          Question.Asked done q := by
        intro q hq
        rcases List.mem_append.mp hq with hmem | hmem
        · exact hasked q hmem
        · obtain rfl := List.mem_singleton.mp hmem
          exact ⟨memo', memo₁, _, session₂, hdone, rfl, rfl⟩
      have hexecuted : cpu.record.instructions < there.record.instructions := by
        rw [hinstructions]
        exact Nat.lt_succ_of_le hle
      cases answer with
      | true =>
        obtain ⟨⟨result, session₃⟩, hconclude, hended⟩ := Option.map_eq_some_iff.mp hrest
        cases hended
        have hsatisfied : Concluded τ cpu there (log ++ [⟨there, true, session.clock.running,
            session₂.clock.running⟩]) (.ok ()) :=
          .satisfied ⟨hexecuted, _, List.getLast?_concat, rfl, rfl⟩
        refine ⟨⟨there, (memo₁, _), some result⟩, ?_, rfl, rfl, rfl, hasked', nofun, ?_⟩
        · show (Processor.conclude (.ok ()) session₂).map _ = _
          rw [hconclude]
          rfl
        · intro result hresult
          cases hresult
          exact hsatisfied.conclude hconclude
      | false =>
        cases hrest
        refine ⟨_, rfl, rfl, rfl, rfl, hasked', fun _ => ⟨Nat.le_of_lt hexecuted,
          hhalted'.trans hhalted, fun hstopped => ⟨hexecuted, ?_⟩⟩, nofun⟩
        -- Either this question stopped the clock, or one before it did.
        cases hrunning : session.clock.running with
        | true => exact ⟨_, List.mem_append_right _ (List.mem_singleton_self _), hrunning, hstopped⟩
        | false =>
          obtain ⟨q, hq, hbefore, hafter⟩ := (hcut hrunning).stopped
          exact ⟨q, List.mem_append_left _ hq, hbefore, hafter⟩

/-! ## Whole executions -/

variable {cpu cpu' : Processor β} {memo memo' : δ} {session session' : ClockSession τ} {limit : Nat}
  {result : Except Fault Unit}

/-- **An execution on a stopped clock has a reason to end.** -/
theorem noted_of_paceUntil (hstopped : session.clock.running = false)
    (hpace : paceUntil limit done cpu memo session = some ((result, cpu', memo'), session')) :
    ∃ log : List (Question β),
      paceUntil limit (noting done) cpu (memo, []) session =
        some ((result, cpu', memo', log), session') ∧
      (∀ q ∈ log, q.Asked done) ∧
      (Concluded τ cpu cpu' log result ∨ result = .ok () ∧ CutShort cpu cpu' log) := by
  obtain ⟨marked, host', hmark, ⟨begun, hmarked⟩, -⟩ := cpu.run_markBegun session.host
  have hnew : Noted done cpu ⟨marked, memo, none⟩ ⟨marked, (memo, []), none⟩ true := by
    rw [hmarked]
    exact ⟨rfl, rfl, rfl, nofun, fun _ => ⟨Nat.le_refl _, rfl, nofun⟩, nofun⟩
  rw [paceUntil_eq _ _ hmark] at hpace ⊢
  obtain ⟨⟨⟨ended, run⟩, session₁⟩, hrun, hresult⟩ := Option.map_eq_some_iff.mp hpace
  have hstopped' : (session.onto host').clock.running = false := hstopped
  obtain ⟨hend, ⟨here, ⟨memo₁, log⟩, outcome⟩, hrun', hnoted⟩ :=
    (shadows_pacedStep done cpu).run hstopped' hnew hrun
  obtain ⟨rfl, rfl, rfl, hasked, hgoing, hconcluded⟩ := hnoted
  rw [hrun']
  cases ended with
  | error fault =>
    cases hresult
    exact ⟨log, rfl, hasked, .inl (.clock fault)⟩
  | ok _ =>
    cases hresult
    refine ⟨log, rfl, hasked, ?_⟩
    cases houtcome : run.outcome with
    | some result => exact .inl (hconcluded result houtcome)
    | none => exact .inr ⟨rfl, (hgoing houtcome).2.2 (hend rfl)⟩

/-- **On a running clock nothing is executed**, and there is no fault. -/
theorem paceUntil_of_running (done : Processor β → δ → ClockM τ (Bool × δ)) (limit : Nat)
    (cpu : Processor β) (memo : δ) (hrunning : session.clock.running = true) :
    ∃ (begun : Option Instant) (host' : Host τ),
      paceUntil limit done cpu memo session = some
        ((.ok (), { cpu with record := { cpu.record with begun } }, memo), session.onto host') := by
  obtain ⟨marked, host', hmark, ⟨begun, hmarked⟩, -⟩ := cpu.run_markBegun session.host
  have hstill : (session.onto host').clock.running = true := hrunning
  refine ⟨begun, host', ?_⟩
  rw [paceUntil_eq _ _ hmark, run_eq, start_of_running _ _ hstill, ← hmarked]
  rfl

theorem paceUntil_disarm (hstopped : session.clock.running = false) :
    paceUntil limit done cpu memo (session.onClock disarm) =
      paceUntil limit done cpu memo session := by
  obtain ⟨marked, host', hmark, -, -⟩ := cpu.run_markBegun session.host
  have hmark' : cpu.markBegun.run (session.onClock disarm).host = (marked, host') := hmark
  have hstopped' : (session.onto host').clock.running = false := hstopped
  rw [paceUntil_eq _ _ hmark, paceUntil_eq _ _ hmark', ← run_disarm hstopped']
  rfl

/-- **An execution that nobody ends** and that began on a stopped clock returns the fault of the
step that failed. -/
theorem failed_of_pace (hstopped : session.clock.running = false)
    (hpace : pace limit cpu session = some ((result, cpu'), session')) :
    ∃ fault : Fault, result = .error fault ∧ cpu'.halted = true ∧ FailedWith τ cpu cpu' fault := by
  obtain ⟨⟨⟨result₁, cpu₁, memo⟩, session₁⟩, hpaceUntil, hended⟩ := Option.bind_eq_some_iff.mp hpace
  cases hended
  obtain ⟨log, -, hasked, hreason⟩ := noted_of_paceUntil hstopped hpaceUntil
  have hunclocked : Unclocked result := by
    rw [← paceUntil_disarm hstopped] at hpaceUntil
    exact (keepsArmed_paceUntil (fun _ _ => .pure _) limit cpu () (session.onClock disarm) _ _ rfl
      hpaceUntil).2
  rcases hreason with (⟨hsatisfied⟩ | ⟨hfailed⟩ | fault) | ⟨-, hcut⟩
  · obtain ⟨q, hlast, -, hanswer⟩ := hsatisfied.last
    have hno := (hasked q (List.mem_of_getLast? hlast)).never.1
    exact absurd (hanswer.symm.trans hno) nofun
  · obtain ⟨before, host, host', hbefore, hstep⟩ := hfailed
    exact ⟨_, rfl, halted_of_step_error hstep, before, host, host', hbefore, hstep⟩
  · exact absurd rfl (hunclocked fault)
  · obtain ⟨q, hq, hbefore, hafter⟩ := hcut.stopped
    have hsame := (hasked q hq).never.2
    rw [hafter, hbefore] at hsame
    cases hsame

/-- **Without a fault an execution is finished, unless its clock was running.**

On a clock that was stopped, an execution that returns without a fault has executed something, and
then either the last question was about the processor as it is left and answered with yes, or a
question stopped the clock. If nobody asks, the execution returns the fault of the step that halted
the processor.

On a clock that was running already, it returns at once without a fault, having executed nothing and
asked nothing. -/
theorem finished_unless_running (limit : Nat) (done : Processor β → δ → ClockM τ (Bool × δ))
    (cpu : Processor β) (memo : δ) (session : ClockSession τ) :
    (session.clock.running = false →
      (∀ (cpu' : Processor β) (memo' : δ) (session' : ClockSession τ),
        paceUntil limit done cpu memo session = some ((.ok (), cpu', memo'), session') →
        ∃ log : List (Question β),
          paceUntil limit (noting done) cpu (memo, []) session =
            some ((.ok (), cpu', memo', log), session') ∧
          (∀ q ∈ log, q.Asked done) ∧ (Satisfied cpu cpu' log ∨ CutShort cpu cpu' log)) ∧
      ∀ (result : Except Fault Unit) (cpu' : Processor β) (session' : ClockSession τ),
        pace limit cpu session = some ((result, cpu'), session') →
        ∃ fault : Fault, result = .error fault ∧ cpu'.halted = true ∧
          FailedWith τ cpu cpu' fault) ∧
    (session.clock.running = true → ∃ (begun : Option Instant) (host' : Host τ),
      paceUntil limit done cpu memo session = some
        ((.ok (), { cpu with record := { cpu.record with begun } }, memo),
          session.onto host')) := by
  refine ⟨fun hstopped => ⟨?_, fun _ _ _ => failed_of_pace hstopped⟩,
    paceUntil_of_running done limit cpu memo⟩
  intro cpu' memo' session' hpace
  rcases noted_of_paceUntil hstopped hpace with ⟨log, hnoting, hasked, hconcluded | ⟨-, hcut⟩⟩
  · cases hconcluded with
    | satisfied h => exact ⟨log, hnoting, hasked, .inl h⟩
  · exact ⟨log, hnoting, hasked, .inr hcut⟩

/-! ## A clock that somebody else has started -/

/-- A question about the number of executed instructions. -/
def enough (n : Nat) (cpu : Processor Memory) (_ : Unit) : ClockM SimulatedTime (Bool × Unit) :=
  return (decide (n ≤ cpu.record.instructions), ())

/-- The slow clock, started and left alone. -/
def startedClock : ClockSession SimulatedTime :=
  slowClock.started

theorem finished_unless_running_shortProgram :
    (∃ (cpu' : Processor Memory) (session' : ClockSession SimulatedTime)
      (log : List (Question Memory)),
      paceUntil 2 (enough 1) shortProgram () slowClock = some ((.ok (), cpu', ()), session') ∧
      (Satisfied shortProgram cpu' log ∨ CutShort shortProgram cpu' log)) ∧
    (∃ (fault : Fault) (cpu' : Processor Memory) (session' : ClockSession SimulatedTime),
      pace 2 shortProgram slowClock = some ((.error fault, cpu'), session') ∧
      cpu'.halted = true) ∧
    ∃ (begun : Option Instant) (host' : Host SimulatedTime),
      paceUntil 2 (enough 1) shortProgram () startedClock =
        some ((.ok (), { shortProgram with record := { begun } }, ()),
          startedClock.onto host') := by
  obtain ⟨hstopped, -⟩ := finished_unless_running 2 (enough 1) shortProgram () slowClock
  obtain ⟨hfinished, hfailed⟩ := hstopped rfl
  obtain ⟨-, hrunning⟩ := finished_unless_running 2 (enough 1) shortProgram () startedClock
  obtain ⟨log, -, -, hreason⟩ := hfinished _ _ _ rfl
  obtain ⟨fault, hfault, hhalted, -⟩ := hfailed _ _ _ rfl
  exact ⟨⟨_, _, log, rfl, hreason⟩, ⟨_, _, _, rfl, hhalted⟩, hrunning rfl⟩

/-- After a start, executions for an instruction and for ever return without a fault. Neither has
executed anything, and the question would be answered with no. -/
theorem started_executes_nothing :
    (∃ session : ClockSession SimulatedTime,
      Clock.start (fun () => return ()) () slowClock = some ((true, ()), session) ∧
      session.clock.running = true ∧
      (∃ (cpu' : Processor Memory) (session' : ClockSession SimulatedTime),
        paceUntil 2 (enough 1) shortProgram () session = some ((.ok (), cpu', ()), session') ∧
        cpu'.record.instructions = 0 ∧
        (enough 1 cpu' () session').map (fun p => p.1.1) = some false ∧
        session'.clock.running = true) ∧
      ∃ (cpu' : Processor Memory) (session' : ClockSession SimulatedTime),
        pace 2 shortProgram session = some ((.ok (), cpu'), session') ∧
        cpu'.record.instructions = 0 ∧ cpu'.halted = false) :=
  ⟨_, rfl, rfl, ⟨_, _, rfl, rfl, rfl, rfl⟩, _, _, rfl, rfl, rfl⟩

end Processor

end Mos6502

import Mos6502.Proofs.Clock.Armed
import Mos6502.Proofs.Clock.Started
import Mos6502.Proofs.Processor.PacedSteps

/-!
# Paced executions and armed clocks

A paced execution hands its clock to the question that it asks after each step. The question may
stop the clock, start it again and run frames of it, in the middle of the frame that the execution
is in. As long as it uses the clock by its calls alone, the clock stays armed, so the execution can
stop it in the end, and its result is never a fault of the clock.

Main result: `clock_armed_and_faultless`.
-/

namespace Mos6502

namespace Processor

open Clock ClockM

variable {β τ δ π ρ : Type}

/-- A result that is no fault of a clock. -/
def Unclocked (result : Except Fault Unit) : Prop :=
  ∀ fault : ClockFault, result ≠ .error (.clock fault)

theorem unclocked_ok : Unclocked (.ok ()) :=
  nofun

/-- An armed clock is stopped, and the result is the one to conclude with. -/
theorem keepsArmed_conclude {result : Except Fault Unit} (h : Unclocked result) :
    KeepsArmed (τ := τ) (conclude result) Unclocked := by
  refine keepsArmed_stop.bind fun stopped hstopped => ?_
  obtain rfl : stopped = .ok () := hstopped
  exact .pure h

/-- A run without an outcome that is a fault of a clock. -/
def PacedRun.Unclocked (run : PacedRun β δ) : Prop :=
  ∀ result : Except Fault Unit, run.outcome = some result → Processor.Unclocked result

variable [Bus β]

theorem unclocked_stepAt (tracing : Bool) (now : Instant) (cpu : Processor β) :
    Unclocked (cpu.stepAt tracing now).1 := by
  cases hrun : cpu.halted with
  | true =>
    rw [cpu.stepAt_of_halted _ _ hrun]
    exact nofun
  | false =>
    cases hget : cpu.instructionSet.get cpu.opcode with
    | none =>
      rw [cpu.stepAt_of_undefined _ _ hrun hget]
      exact nofun
    | some instruction =>
      rw [cpu.stepAt_of_defined _ _ hrun hget]
      exact nofun

variable [TimeSource τ] {done : Processor β → δ → ClockM τ (Bool × δ)}

theorem keepsArmed_step (cpu : Processor β) :
    KeepsArmed (τ := τ) (onHost cpu.step) fun p => Unclocked p.1 := by
  refine .onHost fun host => ?_
  obtain ⟨host', hstep, -⟩ := cpu.run_step host
  rw [hstep]
  exact unclocked_stepAt _ _ cpu

/-- **A call of the handler** fixes no outcome that is a fault of the clock. -/
theorem keepsArmed_pacedStep (h : ∀ cpu memo, Client (done cpu memo)) (run : PacedRun β δ)
    (hrun : run.Unclocked) : KeepsArmed (pacedStep done run) PacedRun.Unclocked := by
  obtain ⟨cpu, memo, outcome⟩ := run
  cases outcome with
  | some result => exact .pure hrun
  | none =>
    refine (keepsArmed_step cpu).bind fun p hp => ?_
    obtain ⟨result, cpu'⟩ := p
    cases result with
    | error fault =>
      refine (keepsArmed_conclude hp).bind fun concluded hconcluded => .pure fun result hmem => ?_
      cases hmem
      exact hconcluded
    | ok _ =>
      refine (h cpu' memo).keepsArmed.bind fun answer _ => ?_
      obtain ⟨satisfied, memo'⟩ := answer
      cases satisfied with
      | false => exact .pure nofun
      | true =>
        refine (keepsArmed_conclude unclocked_ok).bind fun concluded hconcluded =>
          .pure fun result hmem => ?_
        cases hmem
        exact hconcluded

/-- **A paced execution** does not result in a fault of the clock. -/
theorem keepsArmed_paceUntil (h : ∀ cpu memo, Client (done cpu memo)) (limit : Nat)
    (cpu : Processor β) (memo : δ) :
    KeepsArmed (paceUntil limit done cpu memo) fun p => Unclocked p.1 := by
  have hmark : KeepsArmed (τ := τ) (onHost cpu.markBegun) fun _ => True := .onHost fun _ => trivial
  refine hmark.bind fun marked _ => ?_
  have hnew : (⟨marked, memo, none⟩ : PacedRun β δ).Unclocked := nofun
  refine (keepsArmed_run (keepsArmed_pacedStep h) limit hnew).bind fun p hp => ?_
  obtain ⟨hended, houtcome⟩ := hp
  obtain ⟨ended, run⟩ := p
  obtain rfl : ended = .ok () := hended
  refine .pure ?_
  obtain ⟨cpu', memo', outcome⟩ := run
  cases outcome with
  | none => exact unclocked_ok
  | some result => exact houtcome result rfl

theorem keepsArmed_pace (limit : Nat) (cpu : Processor β) :
    KeepsArmed (τ := τ) (pace limit cpu) fun p => Unclocked p.1 :=
  (keepsArmed_paceUntil (fun _ _ => .pure _) limit cpu ()).bind fun _ hresult => .pure hresult

/-! ## No faults of a clock -/

/-- What calls, clients and executions make of a session is no fault of its clock. -/
structure FaultFree (session : ClockSession τ) : Prop where
  stop : ∃ session' : ClockSession τ, Clock.stop session = some (.ok (), session')
  tick {σ : Type} (handler : σ → ClockM τ σ) (h : ∀ state, Client (handler state))
    (state state' : σ) (session' : ClockSession τ) (result : Except ClockFault Bool) :
    Clock.tick handler state session = some ((result, state'), session') →
      ∃ running, result = .ok running
  run {σ : Type} (limit : Nat) (handler : σ → ClockM τ σ) (h : ∀ state, Client (handler state))
    (state state' : σ) (session' : ClockSession τ) (result : Except ClockFault Unit) :
    Clock.run limit handler state session = some ((result, state'), session') → result = .ok ()
  /-- All replies in the tree of replies to a script. -/
  replies {π ρ : Type} (act : π → StateM (Host τ) ρ) (limit : Nat) (call : ClockCall π)
    (session' : ClockSession τ) (reply : ClockReply ρ) :
    ClockCall.perform limit (acting act) call session = some (reply, session') → reply.Faultless
  paceUntil {β δ : Type} [Bus β] (limit : Nat) (done : Processor β → δ → ClockM τ (Bool × δ))
    (h : ∀ cpu memo, Client (done cpu memo)) (cpu cpu' : Processor β) (memo memo' : δ)
    (session' : ClockSession τ) (result : Except Fault Unit) :
    Processor.paceUntil limit done cpu memo session = some ((result, cpu', memo'), session') →
      Unclocked result
  pace {β : Type} [Bus β] (limit : Nat) (cpu cpu' : Processor β) (session' : ClockSession τ)
    (result : Except Fault Unit) :
    Processor.pace limit cpu session = some ((result, cpu'), session') → Unclocked result

theorem faultFree_of_armed {session : ClockSession τ} (h : session.clock.Armed) :
    FaultFree session where
  stop := by
    obtain ⟨session', hstop, -⟩ := stop_of_armed h
    exact ⟨session', hstop⟩
  tick handler hclient state _ _ _ heq :=
    (keepsArmed_tick (fun state _ => (hclient state).keepsArmed) trivial _ _ _ h heq).2.1
  run limit handler hclient state _ _ _ heq :=
    (keepsArmed_run (fun state _ => (hclient state).keepsArmed) limit trivial _ _ _ h heq).2.1
  replies act limit call _ _ heq := (keepsArmed_perform act limit call _ _ _ h heq).2
  paceUntil limit _ hdone cpu _ memo _ _ _ heq :=
    (keepsArmed_paceUntil hdone limit cpu memo _ _ _ h heq).2
  pace limit cpu _ _ _ heq := (keepsArmed_pace limit cpu _ _ _ h heq).2

/-- **A running clock has its deadlines**, at every moment of every script that a new clock is
given, and after any computation that uses it by its calls alone. So no call and no execution that
is given such a clock is told of a fault of it. -/
theorem clock_armed_and_faultless (act : π → StateM (Host τ) ρ) (pace : Pace) (host : Host τ)
    (script : List (ClockCall π)) (n : Nat) :
    ((Moment.outset pace host script).after act n).session.clock.Armed ∧
    FaultFree ((Moment.outset pace host script).after act n).session ∧
    ∀ {α : Type} (action : ClockM τ α), Client action → ∀ (value : α) (session' : ClockSession τ),
      action ((Moment.outset pace host script).after act n).session = some (value, session') →
        session'.clock.Armed ∧ FaultFree session' := by
  have harmed := Moment.armed_after act pace host script n
  refine ⟨harmed, faultFree_of_armed harmed, fun action hclient value session' heq => ?_⟩
  obtain ⟨harmed', -⟩ := hclient.keepsArmed _ _ _ harmed heq
  exact ⟨harmed', faultFree_of_armed harmed'⟩

/-! ## A question that starts the clock again -/

/-- A question that stops the clock, starts it again, and is content. -/
def restless (_ : Processor Memory) (_ : Unit) : ClockM SimulatedTime (Bool × Unit) := do
  let _ ← stop
  let _ ← start (fun () => return ()) ()
  return (true, ())

theorem client_restless (cpu : Processor Memory) (memo : Unit) : Client (restless cpu memo) :=
  .bind .stop fun _ => .bind (.start (fun _ => .pure _) ()) fun _ => .pure _

theorem clock_armed_restless :
    (∃ (result : Except Fault Unit) (cpu' : Processor Memory)
      (session' : ClockSession SimulatedTime),
      paceUntil 2 restless shortProgram () slowClock = some ((result, cpu', ()), session') ∧
        Unclocked result) ∧
    ∃ session' : ClockSession SimulatedTime,
      restless shortProgram () slowClock = some ((true, ()), session') ∧
        session'.clock.running = true ∧ session'.clock.Armed := by
  obtain ⟨-, hfree, hclients⟩ :=
    clock_armed_and_faultless unprobed slowClock.clock.pace slowClock.host [] 0
  refine ⟨⟨.ok (), _, _, rfl, ?_⟩, _, rfl, rfl, ?_⟩
  · exact hfree.paceUntil 2 restless client_restless shortProgram _ () () _ _ rfl
  · exact (hclients _ (client_restless shortProgram ()) _ _ rfl).1

end Processor

end Mos6502

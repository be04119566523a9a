import Mos6502.Processor.Paced
import Mos6502.Proofs.Clock.Calls
import Mos6502.Proofs.Processor.Step

/-!
# Paced execution, call by call

What one call of the handler of a paced processor makes of a session, as an equation for each way
it can go, and what is left of a paced execution once its beginning is marked.
-/

namespace Mos6502

namespace Processor

open ClockM

variable {β τ δ : Type}

/-! ## The end of an execution -/

theorem conclude_of_running (result : Except Fault Unit) (session : ClockSession τ)
    {grid : FrameGrid} (h : session.clock.running = true) (hgrid : session.clock.grid = some grid) :
    conclude result session = some (result, session.stopped) :=
  bind_of_eq_some (Clock.stop_of_running h hgrid)

variable [TimeSource τ]

/-! ## The beginning of an execution -/

theorem run_markBegun (cpu : Processor β) (host : Host τ) :
    ∃ (marked : Processor β) (host' : Host τ), cpu.markBegun.run host = (marked, host') ∧
      (∃ begun : Option Instant, marked = { cpu with record := { cpu.record with begun } }) ∧
      host'.journal.threshold = host.journal.threshold := by
  unfold markBegun
  cases hbegun : cpu.record.begun with
  | some begun => exact ⟨cpu, host, rfl, ⟨some begun, by rw [← hbegun]⟩, rfl⟩
  | none => exact ⟨_, _, rfl, ⟨_, rfl⟩, rfl⟩

variable [Bus β]

/-! ## Calls of the handler -/

variable (done : Processor β → δ → ClockM τ (Bool × δ)) {cpu : Processor β} {memo : δ}
  {session : ClockSession τ}

theorem pacedStep_of_concluded (result : Except Fault Unit) :
    pacedStep done ⟨cpu, memo, some result⟩ session =
      some (⟨cpu, memo, some result⟩, session) :=
  rfl

theorem pacedStep_of_error {fault : Fault} {cpu' : Processor β} {host' : Host τ}
    (hstep : cpu.step.run session.host = ((.error fault, cpu'), host')) :
    pacedStep done ⟨cpu, memo, none⟩ session =
      (conclude (.error fault) (session.onto host')).map fun p =>
        (⟨cpu', memo, some p.1⟩, p.2) := by
  show (onHost cpu.step >>= _) session = _
  rw [bind_of_eq_some (onHost_of_run hstep)]
  show (conclude (.error fault) (session.onto host')).bind _ = _
  cases conclude (.error fault) (session.onto host') <;> rfl

theorem pacedStep_of_ok {cpu' : Processor β} {host' : Host τ}
    (hstep : cpu.step.run session.host = ((.ok (), cpu'), host')) :
    pacedStep done ⟨cpu, memo, none⟩ session =
      (done cpu' memo (session.onto host')).bind fun p =>
        if p.1.1 then
          (conclude (.ok ()) p.2).map fun q => (⟨cpu', p.1.2, some q.1⟩, q.2)
        else
          some (⟨cpu', p.1.2, none⟩, p.2) := by
  show (onHost cpu.step >>= _) session = _
  rw [bind_of_eq_some (onHost_of_run hstep)]
  show (done cpu' memo (session.onto host')).bind _ = _
  cases done cpu' memo (session.onto host') with
  | none => rfl
  | some p =>
    obtain ⟨⟨satisfied, memo⟩, session⟩ := p
    cases satisfied with
    | false => rfl
    | true =>
      show (conclude (.ok ()) session).bind _ = Option.map _ (conclude (.ok ()) session)
      cases conclude (.ok ()) session <;> rfl

/-! ## A whole execution -/

theorem paceUntil_eq (limit : Nat) {marked : Processor β} {host' : Host τ}
    (hmark : cpu.markBegun.run session.host = (marked, host')) :
    paceUntil limit done cpu memo session =
      (Clock.run limit (pacedStep done) ⟨marked, memo, none⟩ (session.onto host')).map fun p =>
        match p.1.1 with
        | .error fault => ((.error (.clock fault), p.1.2.cpu, p.1.2.memo), p.2)
        | .ok () => ((p.1.2.outcome.getD (.ok ()), p.1.2.cpu, p.1.2.memo), p.2) := by
  show (onHost cpu.markBegun >>= _) session = _
  rw [bind_of_eq_some (onHost_of_run hmark)]
  show (Clock.run limit (pacedStep done) ⟨marked, memo, none⟩ (session.onto host')).bind _ = _
  cases Clock.run limit (pacedStep done) ⟨marked, memo, none⟩ (session.onto host') with
  | none => rfl
  | some p =>
    obtain ⟨⟨result, run⟩, session⟩ := p
    cases result <;> rfl

end Processor

end Mos6502

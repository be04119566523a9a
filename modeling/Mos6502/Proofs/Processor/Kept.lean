import Mos6502.Proofs.Clock.Shadow
import Mos6502.Proofs.Processor.Account

/-!
# What each step keeps

Runs for a budget and paced executions consist of steps. What holds of a processor and the list of
its steps is kept by them if each step keeps it (`KeptBySteps`).

A paced execution notes one thing more, the moment at which it begins. What does not depend on that
(`KeptByDrives`) is kept by drives of all kinds, in any order.

Main result: `KeptByDrives.drives`.
-/

namespace Mos6502

namespace Processor

open ClockM

variable {β τ δ : Type} [TimeSource τ]

theorem markBegun_eq (cpu : Processor β) (host : Host τ) :
    (cpu.markBegun.run host).1 = { cpu with record := cpu.record.beginAt host.reading } := by
  obtain ⟨machine, instrs, ⟨cycles, instructions, begun, lastStep⟩, halted⟩ := cpu
  cases begun <;> rfl

variable [Bus β] {keeps : Listed β → Prop}

/-! ## Steps -/

/-- What holds of a processor and the steps made of it is kept by each step, on any host. -/
def KeptBySteps (τ : Type) [TimeSource τ] (keeps : Listed β → Prop) : Prop :=
  ∀ (listed : Listed β) (host : Host τ), keeps listed → keeps (listed.step.run host).1.2

namespace KeptBySteps

theorem spendUpTo (h : KeptBySteps τ keeps) {total limit : Nat} {listed listed' : Listed β}
    {host host' : Host τ} {result : Except Fault Unit} (hkept : keeps listed)
    (hspend : listed.spendUpTo total limit host = some ((result, listed'), host')) :
    keeps listed' :=
  Listed.spendUpTo_keeps (fun listed _ => keeps listed) h total limit hkept hspend

/-- **A call of the handler** of a paced execution makes a step or none, and its question does not
touch the processor. -/
theorem pacedStep (h : KeptBySteps τ keeps) (done : Processor β → δ → ClockM τ (Bool × δ)) :
    Clock.Keeps (fun run => keeps run.listed) (Listed.pacedStep done) := by
  intro run run' session session' hkept hcall
  obtain ⟨rfl, -⟩ | ⟨stepped, host', -, hstep, hlisted, -, -⟩ :=
    Listed.of_pacedStep_eq_some done hcall
  · exact hkept
  · have hstepped := h run.listed session.host hkept
    rw [hstep, ← hlisted] at hstepped
    exact hstepped

end KeptBySteps

/-! ## Drives -/

/-- What holds of a processor and the steps made of it is kept by each step, and does not depend on
when execution began. -/
structure KeptByDrives (τ : Type) [TimeSource τ] (keeps : Listed β → Prop) : Prop where
  step : KeptBySteps τ keeps
  beginAt (listed : Listed β) (now : Instant) : keeps listed →
    keeps ⟨{ listed.cpu with record := listed.cpu.record.beginAt now }, listed.made⟩

namespace KeptByDrives

theorem paceUntil (h : KeptByDrives τ keeps) {done : Processor β → δ → ClockM τ (Bool × δ)}
    {listed : Listed β} {limit : Nat} {memo : δ} {run' : ListedRun β δ}
    {session session' : ClockSession τ} {result : Except Fault Unit} (hkept : keeps listed)
    (hpace : listed.paceUntil limit done memo session = some ((result, run'), session')) :
    keeps run'.listed := by
  have hmarked := listed.cpu.markBegun_eq session.host
  generalize hmark : listed.cpu.markBegun.run session.host = p at hmarked
  obtain ⟨marked, host'⟩ := p
  obtain rfl : marked = _ := hmarked
  rw [Listed.paceUntil_eq done limit hmark] at hpace
  obtain ⟨⟨⟨ended, run₁⟩, session₁⟩, hrun, hresult⟩ := Option.map_eq_some_iff.mp hpace
  obtain rfl : run₁ = run' := by cases ended <;> cases hresult <;> rfl
  exact (h.step.pacedStep done).run (h.beginAt listed session.host.reading hkept) hrun

theorem drive (h : KeptByDrives τ keeps) {drive : Drive β τ} {listed listed' : Listed β}
    {host host' : Host τ} (hkept : keeps listed)
    (hlist : drive.list (listed, host) = some (listed', host')) : keeps listed' := by
  cases drive with
  | step =>
    cases hlist
    exact h.step listed host hkept
  | spend limit budget =>
    obtain ⟨⟨⟨result, listed₁⟩, host₁⟩, hspend, hended⟩ := Option.map_eq_some_iff.mp hlist
    cases hended
    obtain ⟨⟨⟨stepped, listed₂⟩, host₂⟩, hupTo, hspent⟩ := Option.map_eq_some_iff.mp hspend
    cases hspent
    exact h.step.spendUpTo hkept hupTo
  | paceUntil limit clock done memo =>
    obtain ⟨⟨⟨result, run'⟩, session'⟩, hpace, hended⟩ := Option.map_eq_some_iff.mp hlist
    cases hended
    exact h.paceUntil hkept hpace

/-- **Drives in any order** keep it. -/
theorem drives (h : KeptByDrives τ keeps) {drives : List (Drive β τ)} {listed listed' : Listed β}
    {host host' : Host τ} (hkept : keeps listed)
    (hlist : Drive.listAll drives (listed, host) = some (listed', host')) : keeps listed' :=
  Drive.listAll_keeps (fun listed _ => keeps listed) (fun _ _ _ _ _ _ => h.drive) hkept hlist

end KeptByDrives

end Processor

end Mos6502

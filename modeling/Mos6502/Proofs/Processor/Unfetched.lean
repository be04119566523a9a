import Mos6502.Proofs.Processor.Finished
import Mos6502.Proofs.Processor.Kept

/-!
# Drives that fetch nothing

A drive may end before it has fetched an opcode: because the processor is halted, because the budget
is zero, or because the clock of a paced execution is running already. Such a drive has executed
nothing. What is left of the processor then is what the drive began with (`Retained`), for only a
step that fetches changes a processor.

**What a drive begins with** (`Drive.begun`). A paced execution notes the moment of its beginning
before it asks its clock and before it makes a step. It does so too where nothing is fetched, so a
processor that has executed nothing can have a moment at which its execution began, and what is
executed later is measured from there.

Main result: `record_of_noneFetched`.
-/

namespace Mos6502

namespace Processor

open ClockM

variable {β τ δ : Type}

/-! ## Steps that fetch -/

namespace MadeStep

/-- None of the steps fetched an opcode. A halted processor refuses a step, and any other fetches
first. -/
def NoneFetched (made : List (MadeStep β)) : Prop :=
  ∀ step ∈ made, step.before.halted = true

theorem noneFetched_concat {made : List (MadeStep β)} {step : MadeStep β} :
    NoneFetched (made ++ [step]) ↔ NoneFetched made ∧ step.before.halted = true := by
  unfold NoneFetched
  rw [List.forall_mem_append, List.forall_mem_singleton]

end MadeStep

open MadeStep

/-- Of a processor that began as `start`, nothing has changed unless a step has fetched, and none
has if it was halted. -/
structure Retained (start : Processor β) (listed : Listed β) : Prop where
  cpu_eq (h : NoneFetched listed.made) : listed.cpu = start
  noneFetched (h : start.halted = true) : NoneFetched listed.made

namespace Retained

variable {start : Processor β} {listed : Listed β}

theorem refl (start : Processor β) : start.Retained ⟨start, []⟩ :=
  ⟨fun _ => rfl, fun _ => List.forall_mem_nil _⟩

variable [Bus β] [TimeSource τ]

/-- **A step** that does not fetch is refused. -/
theorem step (h : start.Retained listed) (host : Host τ) :
    start.Retained (listed.step.run host).1.2 := by
  refine ⟨fun hnone => ?_, fun hhalted => ?_⟩
  · obtain ⟨hbefore, hrefused⟩ := noneFetched_concat.mp hnone
    show (listed.cpu.step.run host).1.2 = start
    rw [step_of_halted hrefused]
    exact h.cpu_eq hbefore
  · have hbefore := h.noneFetched hhalted
    refine noneFetched_concat.mpr ⟨hbefore, ?_⟩
    show listed.cpu.halted = true
    rw [h.cpu_eq hbefore]
    exact hhalted

theorem keptBySteps (start : Processor β) : KeptBySteps τ start.Retained :=
  fun _ host h => h.step host

end Retained

/-! ## What a drive begins with -/

namespace Drive

/-- There is nothing to execute: the budget is zero, or the clock is running already. -/
def Idle : Drive β τ → Prop
  | step => False
  | spend _ budget => budget = 0
  | paceUntil _ clock _ _ => clock.running = true

/-- Whether a clock paces the drive. -/
def paced : Drive β τ → Bool
  | paceUntil .. => true
  | _ => false

/-- The record that a drive begins with at `now`. -/
def begun (drive : Drive β τ) (record : RunRecord) (now : Instant) : RunRecord :=
  if drive.paced then record.beginAt now else record

/-- The record changes when a paced execution is the first to begin. -/
theorem begun_eq_iff (drive : Drive β τ) (record : RunRecord) (now : Instant) :
    drive.begun record now = record ↔ (drive.paced = true → record.begun.isSome = true) := by
  obtain ⟨cycles, instructions, begun, lastStep⟩ := record
  unfold Drive.begun
  cases drive.paced with
  | false => exact ⟨fun _ => nofun, fun _ => rfl⟩
  | true =>
    cases begun with
    | some begun => exact ⟨fun _ _ => rfl, fun _ => rfl⟩
    | none => exact ⟨fun h => absurd (congrArg RunRecord.begun h) nofun, fun h => nomatch h rfl⟩

/-- The time that an instruction executed at `later` is measured over. -/
theorem elapsed_credit_begun (drive : Drive β τ) (record : RunRecord) (now later : Instant)
    (cycles : UInt8) :
    ((drive.begun record now).credit cycles later).elapsed =
      later - record.begun.getD (if drive.paced then now else later) := by
  obtain ⟨cycles, instructions, begun, lastStep⟩ := record
  unfold Drive.begun
  cases drive.paced <;> cases begun <;> rfl

end Drive

/-! ## The beginning of a paced execution -/

variable [TimeSource τ] [Bus β]

/-- What a paced execution leaves, compared with what it began with. -/
theorem Retained.paceUntil {done : Processor β → δ → ClockM τ (Bool × δ)} {cpu : Processor β}
    {limit : Nat} {memo : δ} {run' : ListedRun β δ} {session session' : ClockSession τ}
    {result : Except Fault Unit}
    (hpace : Listed.paceUntil limit done ⟨cpu, []⟩ memo session = some ((result, run'), session')) :
    Retained { cpu with record := cpu.record.beginAt session.host.reading } run'.listed ∧
      (session.clock.running = true → run'.listed.made = []) := by
  have hmarked := cpu.markBegun_eq session.host
  generalize hmark : cpu.markBegun.run session.host = p at hmarked
  obtain ⟨marked, host'⟩ := p
  obtain rfl : marked = _ := hmarked
  rw [Listed.paceUntil_eq done limit hmark] at hpace
  obtain ⟨⟨⟨ended, run₁⟩, session₁⟩, hrun, hresult⟩ := Option.map_eq_some_iff.mp hpace
  obtain rfl : run₁ = run' := by cases ended <;> cases hresult <;> rfl
  refine ⟨?_, fun hrunning => ?_⟩
  · exact ((keptBySteps _).pacedStep done).run (Retained.refl _) hrun
  · have hstill : (session.onto host').clock.running = true := hrunning
    rw [Clock.run_eq, Clock.start_of_running _ _ hstill] at hrun
    cases hrun
    rfl

/-! ## Whole drives -/

namespace Drive

/-- **A drive** retains what it began with unless a step of it fetches, and none does if there is
nothing to execute. -/
theorem retained {drive : Drive β τ} {cpu : Processor β} {listed : Listed β} {host host' : Host τ}
    (hlist : drive.list (⟨cpu, []⟩, host) = some (listed, host')) :
    Retained { cpu with record := drive.begun cpu.record host.reading } listed ∧
      (drive.Idle → NoneFetched listed.made) := by
  cases drive with
  | step =>
    cases hlist
    exact ⟨(Retained.refl cpu).step host, False.elim⟩
  | spend limit budget =>
    obtain ⟨⟨⟨result, listed₁⟩, host₁⟩, hspend, hended⟩ := Option.map_eq_some_iff.mp hlist
    cases hended
    obtain ⟨⟨⟨stepped, listed₂⟩, host₂⟩, hupTo, hspent⟩ := Option.map_eq_some_iff.mp hspend
    cases hspent
    refine ⟨(Retained.keptBySteps cpu).spendUpTo (.refl cpu) hupTo, fun hbudget => ?_⟩
    have hreached : cpu.record.cycles + budget ≤ cpu.record.cycles :=
      Nat.le_of_eq (congrArg (cpu.record.cycles + ·) hbudget)
    unfold Listed.spendUpTo at hupTo
    rw [if_pos hreached] at hupTo
    cases hupTo
    exact List.forall_mem_nil _
  | paceUntil limit clock done memo =>
    obtain ⟨⟨⟨result, run'⟩, session'⟩, hpace, hended⟩ := Option.map_eq_some_iff.mp hlist
    cases hended
    obtain ⟨hretained, hidle⟩ := Retained.paceUntil hpace
    refine ⟨hretained, fun hrunning => ?_⟩
    rw [hidle hrunning]
    exact List.forall_mem_nil _

end Drive

/-- **A drive that fetches nothing** leaves the processor as it is, but for the moment at which a
paced execution notes that it begins. On a halted processor, for a budget of zero and on a clock
that is running already, nothing is fetched.

So the record is what it was, unless a paced execution is the first to note a beginning. In that
case an instruction that is executed later is measured from the beginning of that execution, and
not from its own. -/
theorem record_of_noneFetched {drive : Drive β τ} {cpu cpu' : Processor β} {host host' : Host τ}
    (happly : drive.apply (cpu, host) = some (cpu', host')) :
    ∃ made : List (MadeStep β),
      drive.list (⟨cpu, []⟩, host) = some (⟨cpu', made⟩, host') ∧
      (cpu.halted = true ∨ drive.Idle → NoneFetched made) ∧
      (NoneFetched made →
        cpu' = { cpu with record := drive.begun cpu.record host.reading } ∧
        (cpu'.record = cpu.record ↔ (drive.paced = true → cpu.record.begun.isSome = true)) ∧
        ∀ (cycles : UInt8) (later : Instant), (cpu'.record.credit cycles later).elapsed =
          later - cpu.record.begun.getD (if drive.paced then host.reading else later)) := by
  rw [← drive.map_list ⟨cpu, []⟩] at happly
  obtain ⟨⟨⟨_, made⟩, _⟩, hlist, hforget⟩ := Option.map_eq_some_iff.mp happly
  cases hforget
  obtain ⟨hretained, hidle⟩ := Drive.retained hlist
  refine ⟨made, hlist, fun h => h.elim hretained.noneFetched hidle, fun hnone => ?_⟩
  have hcpu := hretained.cpu_eq hnone
  have hrecord := congrArg Processor.record hcpu
  refine ⟨hcpu, ?_, fun cycles later => ?_⟩
  · exact hrecord ▸ drive.begun_eq_iff _ _
  · exact hrecord ▸ drive.elapsed_credit_begun _ _ _ _

/-! ## An execution that is refused -/

/-- An execution until the processor has executed an instruction. -/
def paceOne (clock : Clock) : Drive Memory SimulatedTime :=
  .paceUntil 2 clock (enough 1) ()

theorem record_of_noneFetched_startedClock :
    (∃ (cpu' : Processor Memory) (host' : Host SimulatedTime),
      (paceOne startedClock.clock).apply (shortProgram, startedClock.host) = some (cpu', host') ∧
      cpu' = { shortProgram with record := { begun := some 1 } } ∧
      (cpu'.record.credit 2 1000).elapsed = 999) ∧
    ∃ (cpu' : Processor Memory) (host' : Host SimulatedTime),
      (Drive.spend 0 0).apply (shortProgram, startedClock.host) = some (cpu', host') ∧
      cpu'.record = shortProgram.record := by
  refine ⟨⟨_, _, rfl, ?_⟩, _, _, rfl, ?_⟩
  · obtain ⟨made, -, hnone, hleft⟩ := record_of_noneFetched
      (show (paceOne startedClock.clock).apply (shortProgram, startedClock.host) = some _ from rfl)
    obtain ⟨hcpu, -, helapsed⟩ := hleft (hnone (.inr rfl))
    exact ⟨hcpu, helapsed 2 1000⟩
  · obtain ⟨made, -, hnone, hleft⟩ := record_of_noneFetched
      (show (Drive.spend 0 0).apply (shortProgram, startedClock.host) = some _ from rfl)
    obtain ⟨-, hrecord, -⟩ := hleft (hnone (.inr rfl))
    exact hrecord.mpr nofun

/-- A new processor has not begun. After an execution on a clock that was started before, it has,
although no step was made, and so has a halted processor after an execution of which the only step
was refused. -/
theorem begun_without_fetch :
    (∃ session : ClockSession SimulatedTime,
      Clock.start (fun () => return ()) () slowClock = some ((true, ()), session) ∧
      session.clock.running = true ∧
      ∃ (cpu' : Processor Memory) (host' : Host SimulatedTime),
        (paceOne session.clock).list (⟨shortProgram, []⟩, session.host) =
          some (⟨cpu', []⟩, host') ∧
        cpu'.record.begun.isSome = true ∧ cpu'.record ≠ shortProgram.record) ∧
    ∃ (halted : Processor Memory) (host : Host SimulatedTime),
      Drive.step.apply (blank, slowClock.host) = some (halted, host) ∧
      halted.halted = true ∧ halted.record = blank.record ∧
      ∃ (cpu' : Processor Memory) (host' : Host SimulatedTime),
        (paceOne slowClock.clock).list (⟨halted, []⟩, host) =
          some (⟨cpu', [⟨cpu', .error .halted⟩]⟩, host') ∧
        cpu'.halted = true ∧ cpu'.record ≠ halted.record :=
  ⟨⟨_, rfl, rfl, _, _, rfl, rfl, by decide⟩, _, _, rfl, rfl, rfl, _, _, rfl, rfl, by decide⟩

end Processor

end Mos6502

import Mathlib.Algebra.GroupWithZero.Nat
import Mos6502.Proofs.Clock.Passage
import Mos6502.Proofs.Processor.Listed
import Mos6502.Proofs.Processor.PacedSteps

/-!
# What the record of a processor accounts for

Steps, runs for a budget and paced executions follow each other in any order (`Drive`), with clocks
in any state and with any programs. The steps that they make are listed, and the record of the
processor tells how many of these succeeded and what they cost (`Accounts`), whether or not a drive
ends with a fault.

**One step** (`Accounts.step`). A step that succeeds is counted with its cycles, and one that fails
is not. No step changes when execution began, nor the registers that no instruction owns.

**Moments** (`DatedBy`). The last step has a moment if and only if something was executed, and then
execution began at that moment or before it. This depends on time not running backwards.

Main result: `record_accounts_for_steps`.
-/

namespace Mos6502

/-! ## Moments of a record -/

/-- The moments of a record as they can be at `now`. -/
structure RunRecord.DatedBy (record : RunRecord) (now : Instant) : Prop where
  stepped : record.lastStep.isSome = true ↔ 0 < record.instructions
  begun_le_last (last : Instant) (hlast : record.lastStep = some last) :
    ∃ begun, record.begun = some begun ∧ begun ≤ last
  begun_le (begun : Instant) (hbegun : record.begun = some begun) : begun ≤ now

namespace RunRecord

variable {record : RunRecord} {now now' : Instant}

theorem datedBy_new (now : Instant) : ({} : RunRecord).DatedBy now :=
  ⟨by decide, nofun, nofun⟩

theorem DatedBy.later (h : record.DatedBy now) (hle : now ≤ now') : record.DatedBy now' :=
  ⟨h.stepped, h.begun_le_last, fun begun hbegun => Nat.le_trans (h.begun_le begun hbegun) hle⟩

/-- Once execution has begun, it does not begin again. -/
theorem begun_beginAt {begun : Instant} (h : record.begun = some begun) (now : Instant) :
    (record.beginAt now).begun = some begun := by
  show record.begun.or (some now) = some begun
  rw [h]
  rfl

/-- Once it has been noted, execution has begun at `now` or before. -/
theorem DatedBy.begun_le_beginAt (h : record.DatedBy now) :
    ∃ begun, (record.beginAt now).begun = some begun ∧ begun ≤ now := by
  cases hbegun : record.begun with
  | some begun => exact ⟨begun, begun_beginAt hbegun now, h.begun_le begun hbegun⟩
  | none =>
    refine ⟨now, ?_, Nat.le_refl now⟩
    show record.begun.or (some now) = some now
    rw [hbegun]
    rfl

theorem DatedBy.beginAt (h : record.DatedBy now) : (record.beginAt now).DatedBy now := by
  refine ⟨h.stepped, fun last hlast => ?_, fun begun hbegun => ?_⟩
  · obtain ⟨begun, hbegun, hle⟩ := h.begun_le_last last hlast
    exact ⟨begun, begun_beginAt hbegun now, hle⟩
  · obtain ⟨begun', hbegun', hle⟩ := h.begun_le_beginAt
    exact Option.some.inj (hbegun'.symm.trans hbegun) ▸ hle

theorem DatedBy.credit (h : record.DatedBy now) (cycles : UInt8) :
    (record.credit cycles now).DatedBy now := by
  refine ⟨⟨fun _ => Nat.succ_pos _, fun _ => rfl⟩, fun last hlast => ?_, h.beginAt.begun_le⟩
  cases hlast
  exact h.begun_le_beginAt

end RunRecord

namespace Processor

open ClockM

variable {β τ δ : Type}

/-! ## Time -/

theorem reading_conclude [TimeSource τ] {result result' : Except Fault Unit}
    {session session' : ClockSession τ} (h : conclude result session = some (result', session')) :
    session'.host.reading = session.host.reading := by
  obtain ⟨⟨stopped, session₁⟩, hstop, hrest⟩ := Option.bind_eq_some_iff.mp h
  have hsame : session₁.host.reading = session.host.reading := by
    rcases Clock.of_stop_eq_some hstop with rfl | rfl
    · rfl
    · rfl
  rw [← hsame]
  cases stopped with
  | ok _ =>
    cases hrest
    rfl
  | error clockFault =>
    cases result with
    | ok _ =>
      cases hrest
      rfl
    | error fault =>
      cases hrest
      rfl

variable [Bus β] [TimeSource τ] [PassingTime τ]

/-- **A step does not turn time back.** -/
theorem reading_le_step (cpu : Processor β) (host : Host τ) :
    host.reading ≤ (cpu.step.run host).2.reading := by
  obtain ⟨asked, htime⟩ := cpu.time_step host
  unfold Host.reading
  rw [htime]
  cases asked with
  | false => exact Nat.le_refl _
  | true => exact PassingTime.le_now host.time

omit [Bus β] in
theorem reading_le_markBegun (cpu : Processor β) (host : Host τ) :
    host.reading ≤ (cpu.markBegun.run host).2.reading := by
  unfold markBegun
  cases cpu.record.begun with
  | some begun => exact Nat.le_refl _
  | none => exact host.reading_le_asked

/-! ## Accounts -/

/-- At `now` the record is that of `cpu` and the listed steps. -/
structure Accounts (cpu : Processor β) (listed : Listed β) (now : Instant) : Prop where
  instructions : listed.cpu.record.instructions =
    cpu.record.instructions + (MadeStep.executed listed.made).length
  cycles : listed.cpu.record.cycles =
    cpu.record.cycles + ((MadeStep.executed listed.made).map fun step => step.before.cost).sum
  begun (begun : Instant) (h : cpu.record.begun = some begun) :
    listed.cpu.record.begun = some begun
  unowned : cpu.registers.Unowned listed.cpu.registers
  dated : listed.cpu.record.DatedBy now

namespace Accounts

variable {cpu : Processor β} {listed : Listed β} {now now' : Instant}

omit [TimeSource τ] [PassingTime τ] in
theorem refl (h : cpu.record.DatedBy now) : cpu.Accounts ⟨cpu, []⟩ now :=
  ⟨rfl, rfl, fun _ hbegun => hbegun, .refl _, h⟩

theorem later (h : cpu.Accounts listed now) (hle : now ≤ now') : cpu.Accounts listed now' :=
  { h with dated := h.dated.later hle }

/-- The beginning of execution is noted, unless it has begun before. -/
theorem markBegun (host : Host τ) (h : cpu.Accounts listed host.reading) :
    cpu.Accounts ⟨(listed.cpu.markBegun.run host).1, listed.made⟩
      (listed.cpu.markBegun.run host).2.reading := by
  suffices hmarked : cpu.Accounts ⟨(listed.cpu.markBegun.run host).1, listed.made⟩ host.reading from
    hmarked.later (listed.cpu.reading_le_markBegun host)
  unfold Processor.markBegun
  cases hbegun : listed.cpu.record.begun with
  | some begun => exact h
  | none =>
    exact { h with
      begun := fun begun hcpu => RunRecord.begun_beginAt (h.begun begun hcpu) host.reading
      dated := h.dated.beginAt }

/-- **A step is counted if it succeeds.** -/
theorem step (host : Host τ) (h : cpu.Accounts listed host.reading) :
    cpu.Accounts (listed.step.run host).1.2 (listed.step.run host).2.reading := by
  suffices hstep : cpu.Accounts ⟨(listed.cpu.step.run host).1.2,
      listed.made ++ [⟨listed.cpu, (listed.cpu.step.run host).1.1⟩]⟩ host.reading from
    hstep.later (listed.cpu.reading_le_step host)
  have hstepped := listed.cpu.stepped host
  generalize (listed.cpu.step.run host).1 = p at hstepped ⊢
  cases hstepped with
  | failed fault bus =>
    refine ⟨?_, ?_, h.begun, h.unowned, h.dated⟩
    · rw [MadeStep.executed_append_error]
      exact h.instructions
    · rw [MadeStep.executed_append_error]
      exact h.cycles
  | executed instruction machine hrun hnext hunowned =>
    refine ⟨?_, ?_, fun begun hcpu => RunRecord.begun_beginAt (h.begun begun hcpu) host.reading,
      h.unowned.trans hunowned, h.dated.credit instruction.cycles⟩
    · rw [MadeStep.executed_append_ok, List.length_append, ← Nat.add_assoc, ← h.instructions]
      rfl
    · rw [MadeStep.executed_append_ok, List.map_append, List.sum_append, ← Nat.add_assoc,
        ← h.cycles]
      show listed.cpu.record.cycles + instruction.cycles.toNat = _
      rw [← cost_of_next hnext]
      rfl

theorem spend {limit budget : Nat} {listed' : Listed β} {host host' : Host τ}
    {result : Except Fault Nat} (h : cpu.Accounts listed host.reading)
    (hspend : listed.spend limit budget host = some ((result, listed'), host')) :
    cpu.Accounts listed' host'.reading := by
  obtain ⟨⟨⟨stepped, listed₁⟩, host₁⟩, hupTo, hended⟩ := Option.map_eq_some_iff.mp hspend
  cases hended
  exact Listed.spendUpTo_keeps (fun listed host => cpu.Accounts listed host.reading)
    (fun _ _ => step _) _ limit h hupTo

end Accounts

/-! ## Paced executions -/

/-- A question that does not turn time back. -/
def Forward (done : Processor β → δ → ClockM τ (Bool × δ)) : Prop :=
  ∀ (cpu : Processor β) (memo : δ) (p : Bool × δ) (session session' : ClockSession τ),
    done cpu memo session = some (p, session') → session.host.reading ≤ session'.host.reading

/-- **A call of the handler** makes a step, and its question leaves the processor alone. -/
theorem upholds_pacedStep {done : Processor β → δ → ClockM τ (Bool × δ)} (h : Forward done)
    (cpu : Processor β) :
    Clock.Upholds (fun run now => cpu.Accounts run.listed now) (Listed.pacedStep done) := by
  refine ⟨fun h hle => h.later hle, ?_⟩
  intro run run' session session' haccounts hcall
  obtain ⟨rfl, rfl⟩ | ⟨stepped, host', session₁, hstep, hlisted, hasked, hended⟩ :=
    Listed.of_pacedStep_eq_some done hcall
  · exact haccounts
  · have hstepped := haccounts.step session.host
    rw [hstep, ← hlisted] at hstepped
    have hlater : cpu.Accounts run'.listed session₁.host.reading := by
      obtain rfl | ⟨p, hdone⟩ := hasked
      · exact hstepped
      · exact hstepped.later (h _ _ _ _ _ hdone)
    obtain rfl | ⟨result, p, hconclude⟩ := hended
    · exact hlater
    · rw [reading_conclude hconclude]
      exact hlater

theorem Accounts.paceUntil {done : Processor β → δ → ClockM τ (Bool × δ)} (hdone : Forward done)
    {cpu : Processor β} {listed : Listed β} {limit : Nat} {memo : δ} {run' : ListedRun β δ}
    {session session' : ClockSession τ} {result : Except Fault Unit}
    (h : cpu.Accounts listed session.host.reading)
    (hpace : listed.paceUntil limit done memo session = some ((result, run'), session')) :
    cpu.Accounts run'.listed session'.host.reading := by
  have hmarked := h.markBegun
  generalize hmark : listed.cpu.markBegun.run session.host = p at hmarked
  obtain ⟨marked, host'⟩ := p
  replace hmarked : cpu.Accounts ⟨marked, listed.made⟩ (session.onto host').host.reading := hmarked
  rw [Listed.paceUntil_eq done limit hmark] at hpace
  obtain ⟨⟨⟨ended, run₁⟩, session₁⟩, hrun, hresult⟩ := Option.map_eq_some_iff.mp hpace
  have haccounts := (upholds_pacedStep hdone cpu).run hmarked hrun
  cases ended with
  | error fault =>
    cases hresult
    exact haccounts
  | ok _ =>
    cases hresult
    exact haccounts

/-! ## Drives in any order -/

/-- A way to make steps of a processor. -/
inductive Drive (β τ : Type) : Type 1 where
  | step
  | spend (limit budget : Nat)
  /-- Execute on a clock in any state until the caller is satisfied. -/
  | paceUntil {δ : Type} (limit : Nat) (clock : Clock)
    (done : Processor β → δ → ClockM τ (Bool × δ)) (memo : δ)

namespace Drive

/-- Drive a processor on a host, whatever the result is. -/
def apply : Drive β τ → Processor β × Host τ → Option (Processor β × Host τ)
  | step, (cpu, host) => some ((cpu.step.run host).1.2, (cpu.step.run host).2)
  | spend limit budget, (cpu, host) => (cpu.spend limit budget host).map fun p => (p.1.2, p.2)
  | paceUntil limit clock done memo, (cpu, host) =>
    (cpu.paceUntil limit done memo ⟨clock, host⟩).map fun p => (p.1.2.1, p.2.host)

/-- Drive a processor, and list the steps. -/
def list : Drive β τ → Listed β × Host τ → Option (Listed β × Host τ)
  | step, (listed, host) => some ((listed.step.run host).1.2, (listed.step.run host).2)
  | spend limit budget, (listed, host) =>
    (listed.spend limit budget host).map fun p => (p.1.2, p.2)
  | paceUntil limit clock done memo, (listed, host) =>
    (listed.paceUntil limit done memo ⟨clock, host⟩).map fun p => (p.1.2.listed, p.2.host)

/-- Drive a processor in one way after another. -/
def applyAll (drives : List (Drive β τ)) : Processor β × Host τ → Option (Processor β × Host τ) :=
  fun s => drives.foldlM (fun s drive => drive.apply s) s

/-- Drive a processor in one way after another, and list the steps. -/
def listAll (drives : List (Drive β τ)) : Listed β × Host τ → Option (Listed β × Host τ) :=
  fun s => drives.foldlM (fun s drive => drive.list s) s

/-- Time does not run backwards while the caller thinks. -/
def Forward : Drive β τ → Prop
  | paceUntil _ _ done _ => Processor.Forward done
  | _ => True

omit [PassingTime τ] in
/-- A listed drive is the drive. -/
theorem map_list (drive : Drive β τ) (listed : Listed β) (host : Host τ) :
    (drive.list (listed, host)).map (Prod.map Listed.cpu id) = drive.apply (listed.cpu, host) := by
  cases drive with
  | step => rfl
  | spend limit budget =>
    show Option.map _ (Option.map _ _) = (listed.cpu.spend limit budget host).map _
    rw [← Listed.map_spend, Option.map_map, Option.map_map]
    rfl
  | paceUntil limit clock done memo =>
    show Option.map _ (Option.map _ _) = (listed.cpu.paceUntil limit done memo ⟨clock, host⟩).map _
    rw [← Listed.map_paceUntil, Option.map_map, Option.map_map]
    rfl

omit [PassingTime τ] in
theorem map_listAll (drives : List (Drive β τ)) :
    ∀ (listed : Listed β) (host : Host τ),
      (listAll drives (listed, host)).map (Prod.map Listed.cpu id) =
        applyAll drives (listed.cpu, host) := by
  induction drives with
  | nil => exact fun _ _ => rfl
  | cons drive rest ih =>
    intro listed host
    unfold listAll applyAll
    rw [List.foldlM_cons, List.foldlM_cons, ← drive.map_list]
    cases drive.list (listed, host) with
    | none => rfl
    | some s => exact ih s.1 s.2

omit [PassingTime τ] in
/-- **What each of the drives keeps**, they keep one after another. -/
theorem listAll_keeps (keeps : Listed β → Host τ → Prop) {drives : List (Drive β τ)}
    (hkeeps : ∀ drive ∈ drives, ∀ listed host listed' host', keeps listed host →
      drive.list (listed, host) = some (listed', host') → keeps listed' host') :
    ∀ {listed listed' : Listed β} {host host' : Host τ}, keeps listed host →
      listAll drives (listed, host) = some (listed', host') → keeps listed' host' := by
  induction drives with
  | nil =>
    intro listed listed' host host' hkept hlist
    cases hlist
    exact hkept
  | cons drive rest ih =>
    intro listed listed' host host' hkept hlist
    obtain ⟨hfirst, hothers⟩ := List.forall_mem_cons.mp hkeeps
    unfold listAll at hlist
    rw [List.foldlM_cons] at hlist
    obtain ⟨⟨listed₁, host₁⟩, hdrive, hrest⟩ := Option.bind_eq_some_iff.mp hlist
    exact ih hothers (hfirst _ _ _ _ hkept hdrive) hrest

end Drive

namespace Accounts

variable {cpu : Processor β} {listed listed' : Listed β} {host host' : Host τ}

theorem drive {drive : Drive β τ} (hforward : drive.Forward)
    (h : cpu.Accounts listed host.reading)
    (hlist : drive.list (listed, host) = some (listed', host')) :
    cpu.Accounts listed' host'.reading := by
  cases drive with
  | step =>
    cases hlist
    exact h.step
  | spend limit budget =>
    obtain ⟨⟨⟨result, listed₁⟩, host₁⟩, hspend, hended⟩ := Option.map_eq_some_iff.mp hlist
    cases hended
    exact h.spend hspend
  | paceUntil limit clock done memo =>
    obtain ⟨⟨⟨result, run'⟩, session'⟩, hpace, hended⟩ := Option.map_eq_some_iff.mp hlist
    cases hended
    have hsession : cpu.Accounts listed (⟨clock, host⟩ : ClockSession τ).host.reading := h
    exact hsession.paceUntil hforward hpace

theorem drives {drives : List (Drive β τ)} (hforward : ∀ drive ∈ drives, drive.Forward)
    (h : cpu.Accounts listed host.reading)
    (hlist : Drive.listAll drives (listed, host) = some (listed', host')) :
    cpu.Accounts listed' host'.reading :=
  Drive.listAll_keeps (fun listed host => cpu.Accounts listed host.reading)
    (fun _ hdrive _ _ _ _ haccounts hlist => haccounts.drive (hforward _ hdrive) hlist) h hlist

end Accounts

/-- Drives can be listed, and the list accounts for what they make of a record. -/
theorem exists_accounts {cpu cpu' : Processor β} {drives : List (Drive β τ)}
    {host host' : Host τ} (hforward : ∀ drive ∈ drives, drive.Forward)
    (hdated : cpu.record.DatedBy host.reading)
    (hdrives : Drive.applyAll drives (cpu, host) = some (cpu', host')) :
    ∃ made : List (MadeStep β),
      Drive.listAll drives (⟨cpu, []⟩, host) = some (⟨cpu', made⟩, host') ∧
      cpu.Accounts ⟨cpu', made⟩ host'.reading := by
  rw [← Drive.map_listAll drives ⟨cpu, []⟩ host] at hdrives
  obtain ⟨⟨⟨cpu₁, made⟩, host₁⟩, hlist, hended⟩ := Option.map_eq_some_iff.mp hdrives
  cases hended
  exact ⟨made, hlist, (Accounts.refl hdated).drives hforward hlist⟩

/-- **The record of a processor accounts for the steps that were made of it.**

Let a new processor, with any registers, bus and instruction set, be driven in any way, and then be
driven further, while time does not run backwards. Then the further steps are those of a list, and
the counters have grown by the number of those that succeeded and by the cycles of their
instructions. The last step has a moment if and only if something was ever executed, and then
execution began at that moment or before. When it began has not changed, and the registers that no
instruction owns are as they were in the new processor. -/
theorem record_accounts_for_steps (registers : Registers) (bus : β)
    (instructionSet : InstructionSet) (drives more : List (Drive β τ))
    (hforward : ∀ drive ∈ drives ++ more, drive.Forward) {host host₁ host₂ : Host τ}
    {cpu₁ cpu₂ : Processor β}
    (hdrives : Drive.applyAll drives ({ registers, bus, instructionSet }, host) =
      some (cpu₁, host₁))
    (hmore : Drive.applyAll more (cpu₁, host₁) = some (cpu₂, host₂)) :
    ∃ made : List (MadeStep β),
      Drive.listAll more (⟨cpu₁, []⟩, host₁) = some (⟨cpu₂, made⟩, host₂) ∧
      cpu₂.record.instructions =
        cpu₁.record.instructions + (MadeStep.executed made).length ∧
      cpu₂.record.cycles = cpu₁.record.cycles +
        ((MadeStep.executed made).map fun step => step.before.cost).sum ∧
      (cpu₂.record.lastStep.isSome = true ↔ 0 < cpu₂.record.instructions) ∧
      (∀ last, cpu₂.record.lastStep = some last →
        ∃ begun, cpu₂.record.begun = some begun ∧ begun ≤ last) ∧
      (∀ begun, cpu₁.record.begun = some begun → cpu₂.record.begun = some begun) ∧
      registers.Unowned cpu₂.registers := by
  obtain ⟨hfirst, hfurther⟩ := List.forall_mem_append.mp hforward
  obtain ⟨_, -, haccounts₁⟩ := exists_accounts hfirst (RunRecord.datedBy_new _) hdrives
  obtain ⟨made, hlist, haccounts₂⟩ := exists_accounts hfurther haccounts₁.dated hmore
  exact ⟨made, hlist, haccounts₂.instructions, haccounts₂.cycles, haccounts₂.dated.stepped,
    haccounts₂.dated.begun_le_last, haccounts₂.begun, haccounts₁.unowned.trans haccounts₂.unowned⟩

/-! ## A program that extends itself -/

/-- An instruction that stores the accumulator. -/
def storing : Instruction where
  opcode := 0x8D
  mnemonic := "STA"
  mode := .absolute
  cycles := 4
  operation := .sta
  size := 3

/-- An instruction that puts another one behind itself, and an undefined opcode. -/
def selfExtending : Processor Memory where
  registers := { a := 0xEA, x := 7, s := 0xFF, p := 0x3C }
  bus := ⟨#[0x8D, 0x03, 0x00, 0x00, 0x00], by decide, by decide⟩
  instructionSet := shortProgram.instructionSet.insert storing (by decide)

/-- A run for a budget, and an execution that goes on until a step fails. -/
def spendAndPace : List (Drive Memory SimulatedTime) :=
  [.spend 5 1, .paceUntil 2 slowClock.clock (fun _ () => return (false, ())) ()]

theorem forward_spendAndPace : ∀ drive ∈ [.step] ++ spendAndPace, drive.Forward := by
  intro drive hdrive
  obtain rfl | rfl | rfl : drive = .step ∨ drive = .spend 5 1 ∨
      drive = .paceUntil 2 slowClock.clock (fun _ () => return (false, ())) () := by
    simpa [spendAndPace] using hdrive
  · trivial
  · trivial
  · intro cpu memo p session session' hdone
    cases hdone
    exact Nat.le_refl _

theorem record_accounts_for_steps_selfExtending :
    ∃ (cpu₁ cpu₂ : Processor Memory) (host₁ host₂ : Host SimulatedTime)
      (made : List (MadeStep Memory)),
      Drive.applyAll [.step] (selfExtending, (⟨{}, {}⟩ : Host SimulatedTime)) =
        some (cpu₁, host₁) ∧
      Drive.applyAll spendAndPace (cpu₁, host₁) = some (cpu₂, host₂) ∧
      Drive.listAll spendAndPace (⟨cpu₁, []⟩, host₁) = some (⟨cpu₂, made⟩, host₂) ∧
      cpu₁.record.begun = some 0 ∧ cpu₂.halted = true ∧ cpu₂.record.begun = some 0 ∧
      2 = 1 + (MadeStep.executed made).length ∧
      6 = 4 + ((MadeStep.executed made).map fun step => step.before.cost).sum ∧
      cpu₂.registers.x = 7 := by
  have hstep : Drive.applyAll [.step] (selfExtending, (⟨{}, {}⟩ : Host SimulatedTime)) =
      some (_, _) := rfl
  obtain ⟨made, hlist, hinstructions, hcycles, -, -, hbegun, hunowned⟩ :=
    record_accounts_for_steps selfExtending.registers selfExtending.bus
      selfExtending.instructionSet [.step] spendAndPace forward_spendAndPace hstep rfl
  exact ⟨_, _, _, _, made, hstep, rfl, hlist, rfl, rfl, hbegun 0 rfl, hinstructions, hcycles,
    hunowned.x⟩

end Processor

end Mos6502

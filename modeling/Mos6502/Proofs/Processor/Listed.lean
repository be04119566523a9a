import Mos6502.Processor.Budget
import Mos6502.Proofs.Clock.Projection
import Mos6502.Proofs.Processor.Halted
import Mos6502.Proofs.Processor.Stepped

/-!
# Executions that list their steps

A step, a run for a budget and a paced execution, each written once more so that it lists the steps
that it makes (`MadeStep`), and a paced execution the processors that its caller is asked about too.
Nothing depends on the lists.

**Forgetting the lists** (`map_step`, `map_spend`, `map_paceUntil`). What is left is the step, the
run or the execution itself. So what the lists tell is true of these.
-/

namespace Mos6502.Processor

open ClockM

/-- A step that was made. -/
structure MadeStep (β : Type) where
  /-- The processor before the step. -/
  before : Processor β
  result : Except Fault Unit

namespace MadeStep

variable {β : Type}

/-- The steps that succeeded. -/
def executed (made : List (MadeStep β)) : List (MadeStep β) :=
  made.filter fun step => step.result.isOk

theorem executed_append_ok (made : List (MadeStep β)) (cpu : Processor β) :
    executed (made ++ [⟨cpu, .ok ()⟩]) = executed made ++ [⟨cpu, .ok ()⟩] :=
  List.filter_append made [⟨cpu, .ok ()⟩]

theorem executed_append_error (made : List (MadeStep β)) (cpu : Processor β) (fault : Fault) :
    executed (made ++ [⟨cpu, .error fault⟩]) = executed made :=
  (List.filter_append made [⟨cpu, .error fault⟩]).trans (List.append_nil _)

end MadeStep

/-- A processor, and the steps made of it. -/
structure Listed (β : Type) where
  cpu : Processor β
  made : List (MadeStep β) := []

/-- A paced execution that lists its steps and the processors that its caller is asked about. -/
structure ListedRun (β δ : Type) where
  listed : Listed β
  asked : List (Processor β) := []
  memo : δ
  outcome : Option (Except Fault Unit) := none

/-- Forget the lists. -/
def ListedRun.forget {β δ : Type} (run : ListedRun β δ) : PacedRun β δ :=
  ⟨run.listed.cpu, run.memo, run.outcome⟩

namespace Listed

variable {β τ δ : Type} [Bus β] [TimeSource τ]

/-! ## Executions -/

/-- A step, listed. -/
def step (listed : Listed β) : StateM (Host τ) (Except Fault Unit × Listed β) := do
  let (result, cpu) ← listed.cpu.step
  return (result, ⟨cpu, listed.made ++ [⟨listed.cpu, result⟩]⟩)

/-- At most `limit` steps, until the total of cycles is at least `total`. -/
def spendUpTo (total : Nat) : (limit : Nat) → Listed β → Host τ →
    Option ((Except Fault Unit × Listed β) × Host τ)
  | limit, listed, host =>
    if total ≤ listed.cpu.record.cycles then
      some ((.ok (), listed), host)
    else
      match limit with
      | 0 => none
      | limit + 1 =>
        match listed.step.run host with
        | ((.ok (), listed), host) => spendUpTo total limit listed host
        | ((.error fault, listed), host) => some ((.error fault, listed), host)

/-- A run for a budget. -/
def spend (limit : Nat) (listed : Listed β) (budget : Nat) :
    StateT (Host τ) Option (Except Fault Nat × Listed β) := fun host =>
  let before := listed.cpu.record.cycles
  (spendUpTo (before + budget) limit listed host).map fun ((result, listed), host) =>
    ((result.map fun () => listed.cpu.record.cycles - before, listed), host)

/-- One call of the handler of a paced execution. -/
def pacedStep (done : Processor β → δ → ClockM τ (Bool × δ)) (run : ListedRun β δ) :
    ClockM τ (ListedRun β δ) := do
  let ⟨listed, asked, memo, outcome⟩ := run
  match outcome with
  | some result => return ⟨listed, asked, memo, some result⟩
  | none =>
    match ← onHost listed.step with
    | (.ok (), listed) =>
      match ← done listed.cpu memo with
      | (false, memo) => return ⟨listed, asked ++ [listed.cpu], memo, none⟩
      | (true, memo) =>
        return ⟨listed, asked ++ [listed.cpu], memo, some (← conclude (.ok ()))⟩
    | (.error fault, listed) =>
      return ⟨listed, asked, memo, some (← conclude (.error fault))⟩

/-- A paced execution. -/
def paceUntil (limit : Nat) (done : Processor β → δ → ClockM τ (Bool × δ)) (listed : Listed β)
    (memo : δ) : ClockM τ (Except Fault Unit × ListedRun β δ) := do
  let cpu ← onHost listed.cpu.markBegun
  match ← Clock.run limit (pacedStep done) { listed := ⟨cpu, listed.made⟩, memo } with
  | (.error fault, run) => return (.error (.clock fault), run)
  | (.ok (), run) => return (run.outcome.getD (.ok ()), run)

/-! ## Calls of the handler -/

section Calls

variable (done : Processor β → δ → ClockM τ (Bool × δ)) {listed : Listed β}
  {asked : List (Processor β)} {memo : δ} {session : ClockSession τ}

theorem pacedStep_of_concluded (result : Except Fault Unit) :
    pacedStep done ⟨listed, asked, memo, some result⟩ session =
      some (⟨listed, asked, memo, some result⟩, session) :=
  rfl

theorem run_step {result : Except Fault Unit} {cpu' : Processor β} {host host' : Host τ}
    (hstep : listed.cpu.step.run host = ((result, cpu'), host')) :
    listed.step.run host =
      ((result, ⟨cpu', listed.made ++ [⟨listed.cpu, result⟩]⟩), host') := by
  unfold step
  rw [StateT.run_bind, hstep]
  rfl

theorem pacedStep_of_error {fault : Fault} {cpu' : Processor β} {host' : Host τ}
    (hstep : listed.cpu.step.run session.host = ((.error fault, cpu'), host')) :
    pacedStep done ⟨listed, asked, memo, none⟩ session =
      (conclude (.error fault) (session.onto host')).map fun p =>
        (⟨⟨cpu', listed.made ++ [⟨listed.cpu, .error fault⟩]⟩, asked, memo, some p.1⟩, p.2) := by
  show (onHost listed.step >>= _) session = _
  rw [bind_of_eq_some (onHost_of_run (run_step hstep))]
  show (conclude (.error fault) (session.onto host')).bind _ = _
  cases conclude (.error fault) (session.onto host') <;> rfl

theorem pacedStep_of_ok {cpu' : Processor β} {host' : Host τ}
    (hstep : listed.cpu.step.run session.host = ((.ok (), cpu'), host')) :
    pacedStep done ⟨listed, asked, memo, none⟩ session =
      (done cpu' memo (session.onto host')).bind fun p =>
        let listed' : Listed β := ⟨cpu', listed.made ++ [⟨listed.cpu, .ok ()⟩]⟩
        if p.1.1 then
          (conclude (.ok ()) p.2).map fun q =>
            (⟨listed', asked ++ [cpu'], p.1.2, some q.1⟩, q.2)
        else
          some (⟨listed', asked ++ [cpu'], p.1.2, none⟩, p.2) := by
  show (onHost listed.step >>= _) session = _
  rw [bind_of_eq_some (onHost_of_run (run_step hstep))]
  show (done cpu' memo (session.onto host')).bind _ = _
  cases done cpu' memo (session.onto host') with
  | none => rfl
  | some p =>
    obtain ⟨⟨satisfied, memo⟩, session⟩ := p
    cases satisfied with
    | false => rfl
    | true =>
      show (conclude (.ok ()) session).bind _ = Option.map _ (conclude (.ok ()) session)
      cases conclude (.ok ()) session <;> rfl

/-- **A call makes one step or none.** After a step the caller may be asked, and then the clock may
be stopped. -/
theorem of_pacedStep_eq_some {run run' : ListedRun β δ} {session' : ClockSession τ}
    (hcall : pacedStep done run session = some (run', session')) :
    run' = run ∧ session' = session ∨
      ∃ (stepped : Except Fault Unit × Listed β) (host' : Host τ) (session₁ : ClockSession τ),
        run.listed.step.run session.host = (stepped, host') ∧ run'.listed = stepped.2 ∧
        (session₁ = session.onto host' ∨
          ∃ p, done stepped.2.cpu run.memo (session.onto host') = some (p, session₁)) ∧
        (session' = session₁ ∨ ∃ result p, conclude result session₁ = some (p, session')) := by
  obtain ⟨listed, asked, memo, outcome⟩ := run
  cases outcome with
  | some result =>
    cases hcall
    exact .inl ⟨rfl, rfl⟩
  | none =>
    generalize hstep : listed.cpu.step.run session.host = p
    obtain ⟨⟨result, cpu'⟩, host'⟩ := p
    refine .inr ⟨(result, ⟨cpu', listed.made ++ [⟨listed.cpu, result⟩]⟩), host', ?_⟩
    cases result with
    | error fault =>
      rw [pacedStep_of_error done hstep] at hcall
      obtain ⟨⟨p, session₁⟩, hconclude, hended⟩ := Option.map_eq_some_iff.mp hcall
      cases hended
      exact ⟨_, run_step hstep, rfl, .inl rfl, .inr ⟨_, _, hconclude⟩⟩
    | ok _ =>
      rw [pacedStep_of_ok done hstep] at hcall
      obtain ⟨⟨⟨satisfied, memo'⟩, session₁⟩, hdone, hrest⟩ := Option.bind_eq_some_iff.mp hcall
      refine ⟨session₁, run_step hstep, ?_⟩
      cases satisfied with
      | false =>
        cases hrest
        exact ⟨rfl, .inr ⟨_, hdone⟩, .inl rfl⟩
      | true =>
        obtain ⟨⟨p, session₂⟩, hconclude, hended⟩ := Option.map_eq_some_iff.mp hrest
        cases hended
        exact ⟨rfl, .inr ⟨_, hdone⟩, .inr ⟨_, _, hconclude⟩⟩

theorem paceUntil_eq (limit : Nat) {marked : Processor β} {host' : Host τ}
    (hmark : listed.cpu.markBegun.run session.host = (marked, host')) :
    paceUntil limit done listed memo session =
      (Clock.run limit (pacedStep done) ⟨⟨marked, listed.made⟩, [], memo, none⟩
        (session.onto host')).map fun p =>
          match p.1.1 with
          | .error fault => ((.error (.clock fault), p.1.2), p.2)
          | .ok () => ((p.1.2.outcome.getD (.ok ()), p.1.2), p.2) := by
  show (onHost listed.cpu.markBegun >>= _) session = _
  rw [bind_of_eq_some (onHost_of_run hmark)]
  show (Clock.run limit (pacedStep done) _ (session.onto host')).bind _ = _
  cases Clock.run limit (pacedStep done) ⟨⟨marked, listed.made⟩, [], memo, none⟩
    (session.onto host') with
  | none => rfl
  | some p =>
    obtain ⟨⟨result, run⟩, session⟩ := p
    cases result <;> rfl

end Calls

/-- **What each step keeps**, a run for a budget keeps. -/
theorem spendUpTo_keeps (keeps : Listed β → Host τ → Prop)
    (hstep : ∀ listed host, keeps listed host →
      keeps (listed.step.run host).1.2 (listed.step.run host).2) (total limit : Nat) :
    ∀ {listed listed' : Listed β} {host host' : Host τ} {result : Except Fault Unit},
      keeps listed host → spendUpTo total limit listed host = some ((result, listed'), host') →
      keeps listed' host' := by
  induction limit with
  | zero =>
    intro listed listed' host host' result hkept hspend
    unfold spendUpTo at hspend
    split at hspend
    · cases hspend
      exact hkept
    · cases hspend
  | succ limit ih =>
    intro listed listed' host host' result hkept hspend
    unfold spendUpTo at hspend
    split at hspend
    · cases hspend
      exact hkept
    · have hstepped := hstep listed host hkept
      generalize listed.step.run host = p at hstepped hspend
      obtain ⟨⟨stepped, listed₁⟩, host₁⟩ := p
      cases stepped with
      | ok _ => exact ih hstepped hspend
      | error fault =>
        cases hspend
        exact hstepped

/-! ## Forgetting the lists -/

/-- **A listed step is a step.** -/
theorem map_step (listed : Listed β) (host : Host τ) :
    Prod.map (Prod.map id cpu) id (listed.step.run host) = listed.cpu.step.run host :=
  rfl

theorem map_spendUpTo (total limit : Nat) :
    ∀ (listed : Listed β) (host : Host τ),
      (spendUpTo total limit listed host).map (Prod.map (Prod.map id cpu) id) =
        Processor.spendUpTo total limit listed.cpu host := by
  induction limit with
  | zero =>
    intro listed host
    unfold spendUpTo Processor.spendUpTo
    split <;> rfl
  | succ limit ih =>
    intro listed host
    by_cases htotal : total ≤ listed.cpu.record.cycles
    · rw [spendUpTo_of_le htotal, spendUpTo, if_pos htotal]
      rfl
    · rw [spendUpTo_of_lt (Nat.lt_of_not_le htotal), spendUpTo, if_neg htotal, ← map_step]
      generalize listed.step.run host = p
      obtain ⟨⟨result, listed'⟩, host'⟩ := p
      cases result with
      | ok _ => exact ih listed' host'
      | error fault => rfl

/-- **A listed run for a budget is a run for the budget.** -/
theorem map_spend (limit budget : Nat) (listed : Listed β) (host : Host τ) :
    (listed.spend limit budget host).map (Prod.map (Prod.map id cpu) id) =
      listed.cpu.spend limit budget host := by
  show Option.map _ (Option.map _ _) = Option.map _ (Processor.spendUpTo _ limit listed.cpu host)
  rw [← map_spendUpTo, Option.map_map, Option.map_map]
  rfl

theorem projects_pacedStep (done : Processor β → δ → ClockM τ (Bool × δ)) :
    Clock.Projects ListedRun.forget (pacedStep done) (Processor.pacedStep done) := by
  rintro ⟨listed, asked, memo, outcome⟩ session
  cases outcome with
  | some result => rfl
  | none =>
    generalize hstep : listed.cpu.step.run session.host = p
    obtain ⟨⟨result, cpu'⟩, host'⟩ := p
    show Option.map _ _ = Processor.pacedStep done ⟨listed.cpu, memo, none⟩ session
    cases result with
    | error fault =>
      rw [pacedStep_of_error done hstep, Processor.pacedStep_of_error done hstep, Option.map_map]
      rfl
    | ok _ =>
      rw [pacedStep_of_ok done hstep, Processor.pacedStep_of_ok done hstep]
      cases done cpu' memo (session.onto host') with
      | none => rfl
      | some p =>
        obtain ⟨⟨satisfied, memo'⟩, session'⟩ := p
        cases satisfied with
        | false => rfl
        | true =>
          show Option.map _ ((conclude (.ok ()) session').map _) =
            (conclude (.ok ()) session').map _
          rw [Option.map_map]
          rfl

/-- **A listed paced execution is the paced execution.** -/
theorem map_paceUntil (limit : Nat) (done : Processor β → δ → ClockM τ (Bool × δ))
    (listed : Listed β) (memo : δ) (session : ClockSession τ) :
    (listed.paceUntil limit done memo session).map
        (Prod.map (Prod.map id fun run => (run.listed.cpu, run.memo)) id) =
      listed.cpu.paceUntil limit done memo session := by
  obtain ⟨marked, host', hmark, -⟩ := listed.cpu.run_markBegun session.host
  rw [paceUntil_eq done limit hmark, Processor.paceUntil_eq done limit hmark,
    ← show ListedRun.forget ⟨⟨marked, listed.made⟩, [], memo, none⟩ = ⟨marked, memo, none⟩ from rfl,
    ← (projects_pacedStep done).run, Option.map_map, Option.map_map]
  congr 1
  funext p
  obtain ⟨⟨result, run⟩, session'⟩ := p
  cases result <;> rfl

end Listed

end Mos6502.Processor

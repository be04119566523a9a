import Mos6502.Proofs.Processor.Returning

/-!
# Runs in a row

A run for a budget may overshoot it, and the run after it starts from there. So the two together are
a run for what the first has consumed and the second budget, not for the sum of the budgets.

The runs of the comparison are on hosts of their own, which tell different times and keep the same
events. So processors are compared without their moments.

**Later steps** (`Resumes`). A processor that is where steps have led another makes the steps that
the other makes from there, for as much.

**Later runs** (`Resumes.spendsIn`). Its run for a budget is the rest of a run of the other for
what the steps have cost and that budget.

Main result: `spend_composes`.
-/

namespace Mos6502

namespace Processor

variable {β τ τ' τ'' : Type} [Bus β] [TimeSource τ]

/-! ## Runs that return -/

/-- A run for a budget returns with this result and leaves the processor like this. -/
def Returns (cpu : Processor β) (host : Host τ) (budget : Nat) (result : Except Fault Nat)
    (after : Processor β) : Prop :=
  ∃ (limit : Nat) (host' : Host τ), cpu.spend limit budget host = some ((result, after), host')

section Returns

variable {cpu after after' : Processor β} {host : Host τ} {budget n : Nat}
  {result result' : Except Fault Nat}

theorem SpendsIn.returns (h : cpu.SpendsIn host budget n result) :
    cpu.Returns host budget result (cpu.afterSteps host n).2 :=
  ⟨n, _, h.spend (Nat.le_refl n)⟩

theorem Returns.spendsIn (h : cpu.Returns host budget result after) :
    ∃ n, cpu.SpendsIn host budget n result ∧ (cpu.afterSteps host n).2 = after := by
  obtain ⟨limit, host', hspend⟩ := h
  rcases cpu.reaches_or_spendsIn host budget limit with ⟨hreaches, hlt⟩ | ⟨n, hn, _, hend⟩
  · exact absurd (hspend.symm.trans (hreaches.spend_eq_none hlt)) nofun
  · rw [hend.spend hn] at hspend
    cases hspend
    exact ⟨n, hend, rfl⟩

/-- A run returns in one way. -/
theorem Returns.unique (h : cpu.Returns host budget result after)
    (h' : cpu.Returns host budget result' after') : result = result' ∧ after = after' := by
  obtain ⟨n, hend, rfl⟩ := h.spendsIn
  obtain ⟨m, hend', rfl⟩ := h'.spendsIn
  have hsame := (hend.spend (Nat.le_max_left n m)).symm.trans (hend'.spend (Nat.le_max_right n m))
  simp only [Option.some.injEq, Prod.mk.injEq] at hsame
  exact hsame.1

end Returns

/-! ## Later steps -/

omit [TimeSource τ] in
theorem cost_congr {cpu cpu' : Processor β} (h : cpu.untimed = cpu'.untimed) :
    cpu.cost = cpu'.cost :=
  show cpu.untimed.cost = cpu'.untimed.cost by rw [h]

/-- On a host that keeps as much, `here` is where `k` steps lead `cpu`. A run of `cpu` comes there
if it is for what they cost and `budget`. -/
structure Resumes (cpu : Processor β) (plain : Host τ) (k : Nat) (here : Processor β)
    (host : Host τ') (budget : Nat) : Prop where
  reached : cpu.Reaches plain (cpu.costOf plain k + budget) k
  place : here.untimed = (cpu.afterSteps plain k).2.untimed
  keeps : host.journal.threshold = plain.journal.threshold

namespace Resumes

variable {cpu here : Processor β} {plain : Host τ} {host : Host τ'} {k budget n : Nat}

/-- Every processor is where it starts. -/
theorem start (cpu : Processor β) (hkeeps : host.journal.threshold = plain.journal.threshold) :
    Resumes cpu plain 0 cpu host budget where
  reached := reaches_zero
  place := rfl
  keeps := hkeeps

/-- A processor that a run has left goes on where the run would have gone on. -/
theorem of_spendsIn {a spent : Nat} (h : cpu.SpendsIn plain a k (.ok spent))
    (hhere : here.untimed = (cpu.afterSteps plain k).2.untimed)
    (hkeeps : host.journal.threshold = plain.journal.threshold) :
    Resumes cpu plain k here host budget ∧ cpu.costOf plain k = spent := by
  cases h with
  | spent k hreaches henough =>
    have hunspent (i : Nat) (hi : i < k) : cpu.costOf plain i < cpu.costOf plain k + budget :=
      Nat.lt_add_right budget (Nat.lt_of_lt_of_le (hreaches.unspent i hi) henough)
    exact ⟨⟨⟨hreaches.ok, hunspent⟩, hhere, hkeeps⟩, rfl⟩

variable [TimeSource τ']

theorem afterSteps (h : Resumes cpu plain k here host budget) (i : Nat) :
    (here.afterSteps host i).1 = (cpu.afterSteps plain (k + i)).1 ∧
      (here.afterSteps host i).2.untimed = (cpu.afterSteps plain (k + i)).2.untimed := by
  induction i with
  | zero => exact ⟨(h.reached.ok k (Nat.le_refl k)).symm, h.place⟩
  | succ i ih =>
    obtain ⟨now, hnext⟩ := here.afterSteps_succ host i
    obtain ⟨now', hnext'⟩ := cpu.afterSteps_succ plain (k + i)
    rw [hnext, ← Nat.add_assoc, hnext', Host.tracing_congr h.keeps]
    exact stepAt_congr plain.tracing now now' ih.2

theorem costOf (h : Resumes cpu plain k here host budget) (i : Nat) :
    cpu.costOf plain (k + i) = cpu.costOf plain k + here.costOf host i := by
  induction i with
  | zero => rfl
  | succ i ih =>
    rw [← Nat.add_assoc, costOf_succ, costOf_succ, ih, cost_congr (h.afterSteps i).2,
      Nat.add_assoc]

/-! ## Later runs -/

theorem reaches (h : Resumes cpu plain k here host budget)
    (hreaches : here.Reaches host budget n) :
    cpu.Reaches plain (cpu.costOf plain k + budget) (k + n) where
  ok i hi := by
    rcases Nat.le_or_ge i k with hle | hge
    · exact h.reached.ok i hle
    · obtain ⟨j, rfl⟩ := Nat.exists_eq_add_of_le hge
      rw [← (h.afterSteps j).1]
      exact hreaches.ok j (Nat.le_of_add_le_add_left hi)
  unspent i hi := by
    rcases Nat.lt_or_ge i k with hlt | hge
    · exact h.reached.unspent i hlt
    · obtain ⟨j, rfl⟩ := Nat.exists_eq_add_of_le hge
      rw [h.costOf]
      exact Nat.add_lt_add_left (hreaches.unspent j (Nat.lt_of_add_lt_add_left hi)) _

/-- **The run of a later processor is the rest of a run** for what was spent before it in
addition. -/
theorem spendsIn (h : Resumes cpu plain k here host budget)
    {result : Except Fault Nat} (hend : here.SpendsIn host budget n result) :
    cpu.SpendsIn plain (cpu.costOf plain k + budget) (k + n)
      (result.map (cpu.costOf plain k + ·)) := by
  cases hend with
  | spent n hreaches henough =>
    have hspent := SpendsIn.spent (k + n) (h.reaches hreaches) <| by
      rw [h.costOf]
      exact Nat.add_le_add_left henough _
    rw [h.costOf] at hspent
    exact hspent
  | failed n fault hreaches hlt herror =>
    refine .failed (k + n) fault (h.reaches hreaches) ?_ ?_
    · rw [h.costOf]
      exact Nat.add_lt_add_left hlt _
    · rw [Nat.add_assoc, ← (h.afterSteps (n + 1)).1]
      exact herror

/-- If a later run returns, so does the whole run, and where it does. -/
theorem returns (h : Resumes cpu plain k here host budget)
    {result : Except Fault Nat} {after : Processor β}
    (hreturns : here.Returns host budget result after) :
    ∃ after' : Processor β, cpu.Returns plain (cpu.costOf plain k + budget)
        (result.map (cpu.costOf plain k + ·)) after' ∧
      after'.untimed = after.untimed := by
  obtain ⟨n, hend, rfl⟩ := hreturns.spendsIn
  exact ⟨_, (h.spendsIn hend).returns, (h.afterSteps n).2.symm⟩

/-- If the whole run returns, so does the later one. -/
theorem returns_later (h : Resumes cpu plain k here host budget)
    {result : Except Fault Nat} {after : Processor β}
    (hreturns : cpu.Returns plain (cpu.costOf plain k + budget) result after) :
    ∃ result after, here.Returns host budget result after := by
  obtain ⟨m, hend, rfl⟩ := hreturns.spendsIn
  rcases here.reaches_or_spendsIn host budget m with ⟨hreaches, hlt⟩ | ⟨n, hn, result, hlast⟩
  · have hgoing := (h.reaches hreaches).spend_eq_none <| by
      rw [h.costOf]
      exact Nat.add_lt_add_left hlt _
    exact absurd ((hend.spend (Nat.le_add_left m k)).symm.trans hgoing) nofun
  · exact ⟨_, _, hlast.returns⟩

end Resumes

variable [TimeSource τ'] [TimeSource τ'']

/-- A run ends in the same way on any host that keeps as much. -/
theorem SpendsIn.onto {cpu : Processor β} {host : Host τ} {other : Host τ'} {budget n : Nat}
    {result : Except Fault Nat} (h : cpu.SpendsIn host budget n result)
    (hother : other.journal.threshold = host.journal.threshold) :
    cpu.SpendsIn other budget n result ∧
      (cpu.afterSteps other n).2.untimed = (cpu.afterSteps host n).2.untimed := by
  have hstart : Resumes cpu other 0 cpu host budget := .start cpu hother.symm
  have hend := hstart.spendsIn h
  have hplace := (hstart.afterSteps n).2
  have hresult : result.map (cpu.costOf other 0 + ·) = result := by
    cases result with
    | error fault => rfl
    | ok spent => exact congrArg Except.ok (Nat.zero_add spent)
  rw [hresult, show cpu.costOf other 0 = 0 from rfl, Nat.zero_add, Nat.zero_add] at hend
  rw [Nat.zero_add] at hplace
  exact ⟨hend, hplace.symm⟩

/-- A run that fails would fail with a larger budget. -/
theorem SpendsIn.add_budget {cpu : Processor β} {host : Host τ} {a n : Nat} {fault : Fault}
    (h : cpu.SpendsIn host a n (.error fault)) (b : Nat) :
    cpu.SpendsIn host (a + b) n (.error fault) := by
  cases h with
  | failed n fault hreaches hlt herror =>
    refine .failed n fault ⟨hreaches.ok, fun i hi => ?_⟩ (Nat.lt_add_right b hlt) herror
    exact Nat.lt_add_right b (hreaches.unspent i hi)

/-- **Runs compose.** Let a run for `a` return.

If it has consumed `spent` cycles, a run for `b` from there returns exactly if one for `spent + b`
from the start does. They leave the same processor, but for its moments, and fail alike, or the one
from the start consumes `spent` more.

If it fails, a run for `a + b` fails alike and leaves the same processor, but for its moments. -/
theorem spend_composes (cpu : Processor β) (host : Host τ) (later : Host τ') (other : Host τ'')
    (hlater : later.journal.threshold = host.journal.threshold)
    (hother : other.journal.threshold = host.journal.threshold) (a b : Nat) :
    (∀ spent middle, cpu.Returns host a (.ok spent) middle →
      ((∃ result after, middle.Returns later b result after) ↔
        ∃ result after, cpu.Returns other (spent + b) result after) ∧
      ∀ result after result' after', middle.Returns later b result after →
        cpu.Returns other (spent + b) result' after' →
        result' = result.map (spent + ·) ∧ after'.untimed = after.untimed) ∧
    ∀ fault after, cpu.Returns host a (.error fault) after →
      ∃ after', cpu.Returns other (a + b) (.error fault) after' ∧
        after'.untimed = after.untimed := by
  constructor
  · intro spent middle hfirst
    obtain ⟨k, hend, rfl⟩ := hfirst.spendsIn
    obtain ⟨hend', hplace⟩ := hend.onto hother
    obtain ⟨hresumes, rfl⟩ : Resumes cpu other k (cpu.afterSteps host k).2 later b ∧
        cpu.costOf other k = spent :=
      Resumes.of_spendsIn hend' hplace.symm (hlater.trans hother.symm)
    refine ⟨⟨?_, ?_⟩, ?_⟩
    · rintro ⟨result, after, hsecond⟩
      obtain ⟨after', hwhole, -⟩ := hresumes.returns hsecond
      exact ⟨_, after', hwhole⟩
    · rintro ⟨result, after, hwhole⟩
      exact hresumes.returns_later hwhole
    · intro result after result' after' hsecond hwhole
      obtain ⟨_, hwhole', hsame⟩ := hresumes.returns hsecond
      obtain ⟨rfl, rfl⟩ := hwhole.unique hwhole'
      exact ⟨rfl, hsame⟩
  · intro fault after hfirst
    obtain ⟨n, hend, rfl⟩ := hfirst.spendsIn
    obtain ⟨hend', hplace⟩ := hend.onto hother
    exact ⟨_, (hend'.add_budget b).returns, hplace⟩

/-- The first run overshoots by two cycles. A second run from there for two cycles and one from the
start for five overshoot by one. -/
theorem spend_composes_uneven :
    (∃ middle after after' : Processor Memory,
      unevenProgram.Returns newHost 1 (.ok 3) middle ∧
      middle.Returns (unevenProgram.hostAfter newHost 2) 2 (.ok 3) after ∧
      unevenProgram.Returns newHost 5 (.ok 6) after' ∧ after'.untimed = after.untimed) ∧
    ∃ (fault : Fault) (after after' : Processor Memory),
      unevenProgram.Returns newHost 7 (.error fault) after ∧
      unevenProgram.Returns newHost 12 (.error fault) after' ∧
      after'.untimed = after.untimed := by
  let middle := (unevenProgram.afterSteps newHost 2).2
  let later := unevenProgram.hostAfter newHost 2
  have hfirst : unevenProgram.Returns newHost 1 (.ok 3) middle := ⟨2, _, rfl⟩
  have hsecond : middle.Returns later 2 (.ok 3) (middle.afterSteps later 2).2 := ⟨2, _, rfl⟩
  have hfails : unevenProgram.Returns newHost 7
      (.error (.undefinedOpcode 0 4 ⟨{ pc := 4 }, 6, 4, [0xE0, 0xE3, 0xE0, 0xE3, 0x00]⟩))
      (unevenProgram.afterSteps newHost 5).2 := ⟨5, _, rfl⟩
  obtain ⟨hok, -⟩ := spend_composes unevenProgram newHost later newHost rfl rfl 1 2
  obtain ⟨hreturns, hsame⟩ := hok 3 middle hfirst
  obtain ⟨result, after', hwhole⟩ := hreturns.mp ⟨_, _, hsecond⟩
  obtain ⟨rfl, hplace⟩ := hsame _ _ _ _ hsecond hwhole
  obtain ⟨-, herror⟩ := spend_composes unevenProgram newHost later newHost rfl rfl 7 5
  obtain ⟨after'', hfails', hplace'⟩ := herror _ _ hfails
  exact ⟨⟨middle, _, after', hfirst, hsecond, hwhole, hplace⟩, _, _, after'', hfails, hfails',
    hplace'⟩

end Processor

end Mos6502

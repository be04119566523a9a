import Mos6502.Proofs.Processor.Halted

/-!
# Two processors step by step

If steps keep two processors related, so do runs for a budget.

**One step** (`Simulates`). The first processor may be some cycles ahead of the second one for good,
and its faults may be a translation of the other's.

**Main result** (`spend_simulated`). A run ends where its own total is reached, so a lead in both
the counter and the total makes no difference.
-/

namespace Mos6502.Processor

/-- Runs that are related, or both do not end, still are so with more done to what they give. -/
theorem rel_map {α γ α' γ' : Type} {r : α → γ → Prop} {r' : α' → γ' → Prop} {x : Option α}
    {y : Option γ} {f : α → α'} {g : γ → γ'} (h : Option.Rel r x y)
    (hmap : ∀ a c, r a c → r' (f a) (g c)) : Option.Rel r' (x.map f) (y.map g) := by
  cases h with
  | none => exact .none
  | some hrel => exact .some (hmap _ _ hrel)

variable {β β' τ τ' : Type} [Bus β] [Bus β'] [TimeSource τ] [TimeSource τ']

/-- The first result is the translation of the second one, and the processors are related. -/
def AgreeUpTo {α : Type} (related : Processor β → Processor β' → Prop) (translate : Fault → Fault)
    (p : (Except Fault α × Processor β) × Host τ) (q : (Except Fault α × Processor β') × Host τ') :
    Prop :=
  p.1.1 = q.1.1.mapError translate ∧ related p.1.2 q.1.2

/-- Steps keep processors related, on any hosts, and the first processor is `lead` cycles ahead. -/
structure Simulates (τ τ' : Type) [TimeSource τ] [TimeSource τ']
    (related : Processor β → Processor β' → Prop) (lead : Nat) (translate : Fault → Fault) :
    Prop where
  cycles {cpu : Processor β} {cpu' : Processor β'} (h : related cpu cpu') :
    cpu.record.cycles = lead + cpu'.record.cycles
  step {cpu : Processor β} {cpu' : Processor β'} (h : related cpu cpu') (host : Host τ)
    (host' : Host τ') : AgreeUpTo related translate (cpu.step.run host) (cpu'.step.run host')

variable {related : Processor β → Processor β' → Prop} {lead : Nat} {translate : Fault → Fault}

theorem spendUpTo_simulated (hsim : Simulates τ τ' related lead translate) (total limit : Nat) :
    ∀ {cpu : Processor β} {cpu' : Processor β'}, related cpu cpu' →
      ∀ (host : Host τ) (host' : Host τ'),
        Option.Rel (AgreeUpTo related translate) (spendUpTo (lead + total) limit cpu host)
          (spendUpTo total limit cpu' host') := by
  induction limit with
  | zero =>
    intro cpu cpu' h host host'
    unfold spendUpTo
    simp only [hsim.cycles h, Nat.add_le_add_iff_left]
    split
    · exact .some ⟨rfl, h⟩
    · exact .none
  | succ limit ih =>
    intro cpu cpu' h host host'
    have hcycles := hsim.cycles h
    by_cases hspent : total ≤ cpu'.record.cycles
    · rw [spendUpTo_of_le hspent, spendUpTo_of_le (by omega)]
      exact .some ⟨rfl, h⟩
    · rw [spendUpTo_of_lt (Nat.lt_of_not_le hspent), spendUpTo_of_lt (by omega)]
      have hstep := hsim.step h host host'
      generalize cpu.step.run host = p at hstep ⊢
      generalize cpu'.step.run host' = q at hstep ⊢
      obtain ⟨⟨result, cpu₁⟩, host₁⟩ := p
      obtain ⟨⟨result', cpu₁'⟩, host₁'⟩ := q
      obtain ⟨hresult, hnext⟩ := hstep
      obtain rfl : result = result'.mapError translate := hresult
      cases result' with
      | ok _ => exact ih hnext host₁ host₁'
      | error fault => exact .some ⟨rfl, hnext⟩

/-- **A run for a budget keeps what a step keeps.** -/
theorem spend_simulated (hsim : Simulates τ τ' related lead translate) {cpu : Processor β}
    {cpu' : Processor β'} (h : related cpu cpu') (limit budget : Nat) (host : Host τ)
    (host' : Host τ') :
    Option.Rel (AgreeUpTo related translate) (cpu.spend limit budget host)
      (cpu'.spend limit budget host') := by
  have hrun := spendUpTo_simulated hsim (cpu'.record.cycles + budget) limit h host host'
  rw [← Nat.add_assoc, ← hsim.cycles h] at hrun
  refine rel_map hrun fun p q ⟨hresult, hnext⟩ => ⟨?_, hnext⟩
  show p.1.1.map _ = (q.1.1.map _).mapError translate
  rw [hresult, hsim.cycles hnext, hsim.cycles h]
  cases q.1.1 with
  | ok _ => exact congrArg Except.ok (Nat.add_sub_add_left ..)
  | error _ => rfl

end Mos6502.Processor

import Mathlib.Data.Nat.Nth
import Mathlib.Data.Set.Card
import Mos6502.Proofs.Instruction.Registration
import Mos6502.Proofs.Processor.Budget

/-!
# Runs that return

A run for a budget ends with the step that spends the budget or with a step that fails. Nothing else
ends it, and no measure goes down with every step: an instruction may cost nothing, and which
instruction comes next depends on what the program has made of itself.

**The end** (`SpendsIn`). The steps of a run, until they spend the budget or fail. For every limit a
run has come to its end, or it is where as many steps lead as the limit allows
(`reaches_or_spendsIn`).

**Runs without an end** (`endless_iff`). Steps succeed for ever and stay below the budget, so fewer
of them than the budget has cycles cost anything (`finite_costly`).

Main result: `spend_returns_unless_free`. A run for a budget does not return only if from some point
on all it executes is free.
-/

namespace Mos6502

namespace Processor

variable {β τ : Type} [Bus β] [TimeSource τ]

/-! ## The end of a run -/

/-- A run for a budget comes to where `n` steps lead: they succeed, and the budget is not spent
before the last of them. -/
structure Reaches (cpu : Processor β) (host : Host τ) (budget n : Nat) : Prop where
  ok (i : Nat) (hi : i ≤ n) : (cpu.afterSteps host i).1 = .ok ()
  unspent (i : Nat) (hi : i < n) : cpu.costOf host i < budget

/-- A run for a budget ends where `n` steps lead, with this result. -/
inductive SpendsIn (cpu : Processor β) (host : Host τ) (budget : Nat) :
    (n : Nat) → Except Fault Nat → Prop
  | spent (n : Nat) (hreaches : cpu.Reaches host budget n)
    (henough : budget ≤ cpu.costOf host n) :
    SpendsIn cpu host budget n (.ok (cpu.costOf host n))
  | failed (n : Nat) (fault : Fault) (hreaches : cpu.Reaches host budget n)
    (hlt : cpu.costOf host n < budget)
    (herror : (cpu.afterSteps host (n + 1)).1 = .error fault) :
    SpendsIn cpu host budget (n + 1) (.error fault)

variable {cpu : Processor β} {host : Host τ} {budget n : Nat}

theorem reaches_zero : cpu.Reaches host budget 0 where
  ok i hi := by rw [Nat.le_zero.mp hi, afterSteps_zero]
  unspent i hi := absurd hi (Nat.not_lt_zero i)

theorem Reaches.succ (h : cpu.Reaches host budget n) (hlt : cpu.costOf host n < budget)
    (hok : (cpu.afterSteps host (n + 1)).1 = .ok ()) : cpu.Reaches host budget (n + 1) where
  ok i hi := by
    rcases Nat.le_succ_iff.mp hi with hi | rfl
    · exact h.ok i hi
    · exact hok
  unspent i hi := by
    rcases Nat.lt_succ_iff_lt_or_eq.mp hi with hi | rfl
    · exact h.unspent i hi
    · exact hlt

/-- A run that is not at its end when its steps are used up has no result. -/
theorem Reaches.spend_eq_none (h : cpu.Reaches host budget n)
    (hlt : cpu.costOf host n < budget) : cpu.spend n budget host = none := by
  have hcycles := cycles_afterSteps cpu host h.ok
  show (spendUpTo (cpu.record.cycles + budget) n cpu host).map _ = none
  rw [spendUpTo_eq h.ok h.unspent (Nat.le_refl n), Nat.sub_self]
  unfold spendUpTo
  rw [if_neg (by omega)]
  rfl

theorem SpendsIn.spend {result : Except Fault Nat} (h : cpu.SpendsIn host budget n result)
    {limit : Nat} (hlimit : n ≤ limit) :
    cpu.spend limit budget host =
      some ((result, (cpu.afterSteps host n).2), cpu.hostAfter host n) := by
  cases h with
  | spent n hreaches henough => exact spend_of_le hreaches.ok hreaches.unspent henough hlimit
  | failed n fault hreaches hlt herror => exact spend_of_error hreaches.ok hlt herror hlimit

/-- **A run has come to its end or goes on.** -/
theorem reaches_or_spendsIn (cpu : Processor β) (host : Host τ) (budget limit : Nat) :
    cpu.Reaches host budget limit ∧ cpu.costOf host limit < budget ∨
      ∃ n ≤ limit, ∃ result, cpu.SpendsIn host budget n result := by
  have hspent {n : Nat} (h : cpu.Reaches host budget n) : cpu.costOf host n < budget ∨
      ∃ result, cpu.SpendsIn host budget n result := by
    rcases Nat.lt_or_ge (cpu.costOf host n) budget with hlt | hle
    · exact .inl hlt
    · exact .inr ⟨_, .spent n h hle⟩
  induction limit with
  | zero =>
    rcases hspent reaches_zero with hlt | hend
    · exact .inl ⟨reaches_zero, hlt⟩
    · exact .inr ⟨0, Nat.le_refl 0, hend⟩
  | succ limit ih =>
    rcases ih with ⟨hreaches, hlt⟩ | ⟨n, hn, hend⟩
    · cases hnext : (cpu.afterSteps host (limit + 1)).1 with
      | error fault =>
        exact .inr ⟨limit + 1, Nat.le_refl _, _, .failed limit fault hreaches hlt hnext⟩
      | ok =>
        have hreaches' := hreaches.succ hlt hnext
        rcases hspent hreaches' with hlt' | hend
        · exact .inl ⟨hreaches', hlt'⟩
        · exact .inr ⟨limit + 1, Nat.le_refl _, hend⟩
    · exact .inr ⟨n, Nat.le_succ_of_le hn, hend⟩

/-! ## Runs without an end -/

/-- **A run does not return** exactly if its steps succeed for ever and never spend the budget. -/
theorem endless_iff (cpu : Processor β) (host : Host τ) (budget : Nat) :
    (∀ limit, cpu.spend limit budget host = none) ↔
      ∀ n, (cpu.afterSteps host n).1 = .ok () ∧ cpu.costOf host n < budget := by
  constructor
  · intro hnone n
    rcases cpu.reaches_or_spendsIn host budget n with ⟨hreaches, hlt⟩ | ⟨m, hm, result, hend⟩
    · exact ⟨hreaches.ok n (Nat.le_refl n), hlt⟩
    · exact absurd ((hend.spend hm).symm.trans (hnone n)) nofun
  · intro h limit
    exact Reaches.spend_eq_none ⟨fun i _ => (h i).1, fun i _ => (h i).2⟩ (h limit).2

/-- Steps that cost something cost at least one cycle each. -/
theorem count_le_costOf (cpu : Processor β) (host : Host τ) (n : Nat) :
    Nat.count (fun i => (cpu.afterSteps host i).2.cost ≠ 0) n ≤ cpu.costOf host n := by
  induction n with
  | zero => exact Nat.le_refl 0
  | succ n ih =>
    rw [Nat.count_succ, costOf_succ]
    split
    · exact Nat.add_le_add ih (by omega)
    · exact Nat.le_add_right_of_le ih

/-- If steps never cost as much as the budget, fewer of them than it has cycles cost anything. -/
theorem finite_costly (h : ∀ n, cpu.costOf host n < budget) :
    {i | (cpu.afterSteps host i).2.cost ≠ 0}.Finite ∧
      {i | (cpu.afterSteps host i).2.cost ≠ 0}.ncard < budget := by
  have hcount (n : Nat) : Nat.count (fun i => (cpu.afterSteps host i).2.cost ≠ 0) n < budget :=
    Nat.lt_of_le_of_lt (cpu.count_le_costOf host n) (h n)
  have hfinite : {i | (cpu.afterSteps host i).2.cost ≠ 0}.Finite := by
    by_contra hinfinite
    -- Of the steps that cost anything, one comes after as many as the budget has cycles.
    have hnth := Nat.count_nth_of_infinite hinfinite budget
    exact absurd (hcount _) (Nat.not_lt.mpr (Nat.le_of_eq hnth.symm))
  obtain ⟨last, hlast⟩ := hfinite.bddAbove
  have hrange : {i | (cpu.afterSteps host i).2.cost ≠ 0} =
      ↑((Finset.range (last + 1)).filter fun i => (cpu.afterSteps host i).2.cost ≠ 0) := by
    ext i
    rw [Finset.mem_coe, Finset.mem_filter, Finset.mem_range]
    exact ⟨fun hi => ⟨Nat.lt_succ_of_le (hlast hi), hi⟩, And.right⟩
  refine ⟨hfinite, ?_⟩
  rw [hrange, Set.ncard_coe_finset, ← Nat.count_eq_card_filter_range]
  exact hcount (last + 1)

/-! ## Instructions that cost something -/

theorem instructionSet_afterSteps (cpu : Processor β) (host : Host τ) (n : Nat) :
    (cpu.afterSteps host n).2.instructionSet = cpu.instructionSet := by
  induction n with
  | zero => rfl
  | succ n ih => exact (cpu.stepped_afterSteps host n).instructionSet_eq.trans ih

theorem le_costOf {k : Nat} (hcost : ∀ opcode instruction,
      cpu.instructionSet.get opcode = some instruction → k ≤ instruction.cycles.toNat)
    (hok : ∀ i ≤ n, (cpu.afterSteps host i).1 = .ok ()) : k * n ≤ cpu.costOf host n := by
  induction n with
  | zero => exact Nat.zero_le _
  | succ n ih =>
    obtain ⟨instruction, hnext⟩ :=
      (cpu.stepped_afterSteps host n).next_of_ok (hok (n + 1) (Nat.le_refl _))
    have hk : k ≤ (cpu.afterSteps host n).2.cost := by
      rw [cost_of_next hnext]
      rw [nextInstruction, instructionSet_afterSteps] at hnext
      exact hcost _ instruction hnext
    rw [costOf_succ, Nat.mul_succ]
    exact Nat.add_le_add (ih fun i hi => hok i (Nat.le_succ_of_le hi)) hk

/-- A run returns once the cheapest instruction would have spent the budget. -/
theorem isSome_spend {k limit : Nat} (host : Host τ) (hcost : ∀ opcode instruction,
      cpu.instructionSet.get opcode = some instruction → k ≤ instruction.cycles.toNat)
    (hlimit : budget ≤ k * limit) : (cpu.spend limit budget host).isSome := by
  rcases cpu.reaches_or_spendsIn host budget limit with ⟨hreaches, hlt⟩ | ⟨n, hn, result, hend⟩
  · have hle := le_costOf hcost hreaches.ok
    omega
  · rw [hend.spend hn]
    rfl

theorem two_le_cycles_standard {opcode : UInt8} {instruction : Instruction}
    (h : InstructionSet.standard.get opcode = some instruction) :
    2 ≤ instruction.cycles.toNat := by
  have hall : ∀ instruction ∈ standardInstructions, 2 ≤ instruction.cycles.toNat := by decide
  obtain rfl := InstructionSet.opcode_of_get h
  exact hall instruction
    (InstructionSet.toList_standard.mem_iff.mp (InstructionSet.mem_toList.mpr h))

/-! ## When a run returns -/

/-- **A run for a budget returns unless all it executes from some point on is free.** -/
theorem spend_returns_unless_free (cpu : Processor β) (host : Host τ) (budget : Nat) :
    ((∀ limit, cpu.spend limit budget host = none) ↔
      ∀ n, (cpu.afterSteps host n).1 = .ok () ∧ cpu.costOf host n < budget) ∧
    ((∀ limit, cpu.spend limit budget host = none) →
      {i | (cpu.afterSteps host i).2.cost ≠ 0}.Finite ∧
      {i | (cpu.afterSteps host i).2.cost ≠ 0}.ncard < budget ∧
      ∃ m, ∀ i ≥ m, ∃ instruction,
        (cpu.afterSteps host i).2.nextInstruction = some instruction ∧ instruction.cycles = 0) ∧
    ((∀ opcode instruction, cpu.instructionSet.get opcode = some instruction →
      1 ≤ instruction.cycles) → (cpu.spend budget budget host).isSome) ∧
    (cpu.instructionSet = .standard → (cpu.spend ((budget + 1) / 2) budget host).isSome) := by
  refine ⟨cpu.endless_iff host budget, fun hnone => ?_, fun hcost => ?_, fun hset => ?_⟩
  · have hendless := (cpu.endless_iff host budget).mp hnone
    obtain ⟨hfinite, hcard⟩ := finite_costly fun n => (hendless n).2
    refine ⟨hfinite, hcard, ?_⟩
    obtain ⟨last, hlast⟩ := hfinite.bddAbove
    refine ⟨last + 1, fun i hi => ?_⟩
    obtain ⟨instruction, hnext⟩ := (cpu.stepped_afterSteps host i).next_of_ok (hendless (i + 1)).1
    have hfree : (cpu.afterSteps host i).2.cost = 0 :=
      not_not.mp fun hcostly => Nat.not_lt.mpr (hlast hcostly) hi
    rw [cost_of_next hnext] at hfree
    exact ⟨instruction, hnext, UInt8.toNat_inj.mp hfree⟩
  · refine isSome_spend host (fun opcode instruction h => ?_) (Nat.le_of_eq (Nat.one_mul _).symm)
    exact UInt8.le_iff_toNat_le.mp (hcost opcode instruction h)
  · refine isSome_spend host (fun opcode instruction h => ?_) (k := 2) (by omega)
    rw [hset] at h
    exact two_le_cycles_standard h

/-! ## A loop that costs nothing -/

/-- A jump that costs nothing. -/
def freeJump : Instruction where
  opcode := 0x4C
  mnemonic := "JMP"
  mode := .absolute
  cycles := 0
  operation := .jmp
  size := 3

/-- A free jump to itself. -/
def freeLoop : Processor Memory where
  registers := {}
  bus := ⟨#[0x4C, 0x00, 0x00], by decide, by decide⟩
  instructionSet := InstructionSet.empty.insert freeJump (by decide)

/-- The loop is where it was after every step, but for the record. -/
theorem afterSteps_freeLoop (n : Nat) : ∃ record : RunRecord,
    freeLoop.afterSteps newHost n = (.ok (), { freeLoop with record }) := by
  induction n with
  | zero => exact ⟨{}, rfl⟩
  | succ n ih =>
    obtain ⟨record, hn⟩ := ih
    obtain ⟨now, hnext⟩ := freeLoop.afterSteps_succ newHost n
    rw [hnext, hn]
    exact ⟨record.credit 0 now, rfl⟩

theorem spend_returns_unless_free_freeLoop :
    (∀ limit, freeLoop.spend limit 1 newHost = none) ∧
      {i | (freeLoop.afterSteps newHost i).2.cost ≠ 0}.ncard < 1 := by
  obtain ⟨hiff, hfree, -⟩ := spend_returns_unless_free freeLoop newHost 1
  have hcost (n : Nat) : (freeLoop.afterSteps newHost n).2.cost = 0 := by
    obtain ⟨record, hn⟩ := afterSteps_freeLoop n
    rw [hn]
    rfl
  have hcostOf (n : Nat) : freeLoop.costOf newHost n = 0 := by
    induction n with
    | zero => rfl
    | succ n ih => rw [costOf_succ, ih, hcost]
  have hendless := hiff.mpr fun n => by
    obtain ⟨record, hn⟩ := afterSteps_freeLoop n
    exact ⟨by rw [hn], by rw [hcostOf]; exact Nat.one_pos⟩
  exact ⟨hendless, (hfree hendless).2.1⟩

end Processor

end Mos6502

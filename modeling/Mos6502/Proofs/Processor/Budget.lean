import Mathlib.Algebra.GroupWithZero.Nat
import Mathlib.Order.Bounds.Basic
import Mos6502.Proofs.Processor.Halted
import Mos6502.Proofs.Processor.PacedSteps
import Mos6502.Proofs.Processor.Stepped

/-!
# Runs for a budget, step by step

A run for a budget looks at the counter of cycles and not at the number of its steps. Instructions
cost what they cost, nothing included, and a program may change itself, so what the steps cost is
known only once they are made (`costOf`).

**The counter** (`cycles_afterSteps`). As long as steps succeed, the counter is where it was, plus
what they cost.

**The loop** (`spendUpTo_afterSteps`). From where `i` steps lead, a run goes on to where `n` steps
lead, if none of the steps between them fails or finds the budget spent.

Main result: `spend_is_shortest`. A run for a budget is the least number of steps that cost as much,
or ends with the first step that fails.
-/

namespace Mos6502

namespace Processor

variable {β τ : Type} [Bus β] [TimeSource τ]

/-! ## What steps cost -/

/-- The cycles of the first `n` steps in a row, if they succeed. -/
def costOf (cpu : Processor β) (host : Host τ) (n : Nat) : Nat :=
  ((List.range n).map fun i => (cpu.afterSteps host i).2.cost).sum

/-- The host after `n` steps in a row. -/
def hostAfter (cpu : Processor β) (host : Host τ) (n : Nat) : Host τ :=
  ((cpu.steps n).run host).2

theorem costOf_succ (cpu : Processor β) (host : Host τ) (n : Nat) :
    cpu.costOf host (n + 1) = cpu.costOf host n + (cpu.afterSteps host n).2.cost := by
  unfold costOf
  rw [List.range_succ, List.map_append, List.sum_append]
  rfl

theorem costOf_mono (cpu : Processor β) (host : Host τ) {m n : Nat} (h : m ≤ n) :
    cpu.costOf host m ≤ cpu.costOf host n :=
  monotone_nat_of_le_succ (fun n => by rw [costOf_succ]; exact Nat.le_add_right _ _) h

/-- The step after the first `n`. -/
theorem step_afterSteps (cpu : Processor β) (host : Host τ) (n : Nat) :
    (cpu.afterSteps host n).2.step.run (cpu.hostAfter host n) =
      (cpu.afterSteps host (n + 1), cpu.hostAfter host (n + 1)) :=
  rfl

theorem stepped_afterSteps (cpu : Processor β) (host : Host τ) (n : Nat) :
    Stepped (cpu.hostAfter host n).reading (cpu.afterSteps host n).2
      (cpu.afterSteps host (n + 1)) :=
  (cpu.afterSteps host n).2.stepped (cpu.hostAfter host n)

/-- **The counter goes up by what the steps cost**, as long as they succeed. -/
theorem cycles_afterSteps (cpu : Processor β) (host : Host τ) {n : Nat}
    (hok : ∀ i ≤ n, (cpu.afterSteps host i).1 = .ok ()) :
    (cpu.afterSteps host n).2.record.cycles = cpu.record.cycles + cpu.costOf host n := by
  induction n with
  | zero => rfl
  | succ n ih =>
    have hn := ih fun i hi => hok i (Nat.le_succ_of_le hi)
    rw [(cpu.stepped_afterSteps host n).cycles_of_ok (hok (n + 1) (Nat.le_refl _)), hn, costOf_succ,
      Nat.add_assoc]

/-! ## The loop -/

/-- **A run goes on** as long as steps succeed and the total is not reached before them. -/
theorem spendUpTo_afterSteps (cpu : Processor β) (host : Host τ) (total : Nat) (m : Nat) :
    ∀ i limit : Nat, (∀ j, i ≤ j → j < i + m → (cpu.afterSteps host (j + 1)).1 = .ok () ∧
        (cpu.afterSteps host j).2.record.cycles < total) →
      spendUpTo total (limit + m) (cpu.afterSteps host i).2 (cpu.hostAfter host i) =
        spendUpTo total limit (cpu.afterSteps host (i + m)).2 (cpu.hostAfter host (i + m)) := by
  induction m with
  | zero => exact fun i limit _ => rfl
  | succ m ih =>
    intro i limit hgoing
    obtain ⟨hok, hlt⟩ := hgoing i (Nat.le_refl i) (Nat.lt_add_of_pos_right (Nat.succ_pos m))
    have hrest := ih (i + 1) limit fun j hi hj =>
      hgoing j (Nat.le_of_succ_le hi) (by omega)
    rw [← Nat.add_assoc, spendUpTo_of_lt hlt, step_afterSteps, Nat.add_comm m,
      ← Nat.add_assoc i]
    generalize cpu.afterSteps host (i + 1) = next at hok hrest ⊢
    obtain ⟨result, cpu'⟩ := next
    obtain rfl : result = .ok () := hok
    exact hrest

variable {cpu : Processor β} {host : Host τ} {budget n : Nat}

/-- A run for a budget comes to where `n` steps lead that succeed and before which the budget is not
spent. -/
theorem spendUpTo_eq (hok : ∀ i ≤ n, (cpu.afterSteps host i).1 = .ok ())
    (hbefore : ∀ i < n, cpu.costOf host i < budget) {limit : Nat} (hlimit : n ≤ limit) :
    spendUpTo (cpu.record.cycles + budget) limit cpu host =
      spendUpTo (cpu.record.cycles + budget) (limit - n) (cpu.afterSteps host n).2
        (cpu.hostAfter host n) := by
  have hloop := spendUpTo_afterSteps cpu host (cpu.record.cycles + budget) n 0 (limit - n)
    fun j _ hj => ⟨hok (j + 1) (by omega), by
      rw [cycles_afterSteps cpu host fun i hi => hok i (by omega)]
      exact Nat.add_lt_add_left (hbefore j (by omega)) _⟩
  rw [Nat.sub_add_cancel hlimit, Nat.zero_add] at hloop
  exact hloop

/-- A run ends once the budget is spent. -/
theorem spend_of_le (hok : ∀ i ≤ n, (cpu.afterSteps host i).1 = .ok ())
    (hbefore : ∀ i < n, cpu.costOf host i < budget) (henough : budget ≤ cpu.costOf host n)
    {limit : Nat} (hlimit : n ≤ limit) :
    cpu.spend limit budget host =
      some ((.ok (cpu.costOf host n), (cpu.afterSteps host n).2), cpu.hostAfter host n) := by
  have hcycles := cycles_afterSteps cpu host hok
  show (spendUpTo (cpu.record.cycles + budget) limit cpu host).map _ = _
  rw [spendUpTo_eq hok hbefore hlimit, spendUpTo_of_le (by rw [hcycles]; omega)]
  show some ((Except.ok ((cpu.afterSteps host n).2.record.cycles - cpu.record.cycles), _), _) = _
  rw [hcycles, Nat.add_sub_cancel_left]

/-- A run ends with a step that fails before the budget is spent. -/
theorem spend_of_error (hok : ∀ i ≤ n, (cpu.afterSteps host i).1 = .ok ())
    (hlt : cpu.costOf host n < budget) {fault : Fault}
    (herror : (cpu.afterSteps host (n + 1)).1 = .error fault) {limit : Nat} (hlimit : n < limit) :
    cpu.spend limit budget host = some
      ((.error fault, (cpu.afterSteps host (n + 1)).2), cpu.hostAfter host (n + 1)) := by
  have hcycles := cycles_afterSteps cpu host hok
  have hbefore (i : Nat) (hi : i < n) : cpu.costOf host i < budget :=
    Nat.lt_of_le_of_lt (cpu.costOf_mono host (Nat.le_of_lt hi)) hlt
  obtain ⟨left, hleft⟩ := Nat.exists_eq_add_of_lt hlimit
  show (spendUpTo (cpu.record.cycles + budget) limit cpu host).map _ = _
  rw [spendUpTo_eq hok hbefore (Nat.le_of_lt hlimit), show limit - n = left + 1 by omega,
    spendUpTo_of_lt (by rw [hcycles]; omega), step_afterSteps]
  generalize cpu.afterSteps host (n + 1) = next at herror ⊢
  obtain ⟨result, cpu'⟩ := next
  obtain rfl : result = .error fault := herror
  rfl

/-- **A run for a budget is the shortest run that spends it.** Let `n` steps succeed.

If `n` is the least number of steps that cost the budget or more, the run returns what they cost and
leaves processor and host as these steps leave them. The overshoot is less than the cost of the last
step.

If the `n` steps cost less than the budget and the next one fails, the run returns its fault and
leaves processor and host as this step leaves them. Less than the budget was consumed. -/
theorem spend_is_shortest (cpu : Processor β) (host : Host τ) (budget n : Nat)
    (hok : ∀ i ≤ n, (cpu.afterSteps host i).1 = .ok ()) :
    (IsLeast {m | budget ≤ cpu.costOf host m} n →
      (∀ limit, n ≤ limit → cpu.spend limit budget host =
        some ((.ok (cpu.costOf host n), (cpu.afterSteps host n).2), cpu.hostAfter host n)) ∧
      budget ≤ cpu.costOf host n ∧
      (0 < budget → ∃ last, n = last + 1 ∧
        cpu.costOf host n - budget < (cpu.afterSteps host last).2.cost) ∧
      (cpu.afterSteps host n).2.record.cycles < cpu.record.cycles + budget + 255) ∧
    ∀ fault, (cpu.afterSteps host (n + 1)).1 = .error fault → cpu.costOf host n < budget →
      (∀ limit, n < limit → cpu.spend limit budget host = some
        ((.error fault, (cpu.afterSteps host (n + 1)).2), cpu.hostAfter host (n + 1))) ∧
      (cpu.afterSteps host (n + 1)).2.record.cycles < cpu.record.cycles + budget := by
  have hcycles := cycles_afterSteps cpu host hok
  refine ⟨fun hleast => ?_, fun fault herror hlt =>
    ⟨fun limit => spend_of_error hok hlt herror, ?_⟩⟩
  · obtain ⟨henough, hlower⟩ := hleast
    replace henough : budget ≤ cpu.costOf host n := henough
    have hbefore (i : Nat) (hi : i < n) : cpu.costOf host i < budget :=
      Nat.lt_of_not_le fun hle => Nat.not_lt.mpr (hlower hle) hi
    refine ⟨fun limit => spend_of_le hok hbefore henough, henough, ?_⟩
    cases n with
    | zero =>
      have hzero : budget = 0 := Nat.le_zero.mp henough
      refine ⟨fun hpos => absurd hpos (by omega), ?_⟩
      rw [hcycles, hzero]
      exact Nat.lt_add_of_pos_right (by decide)
    | succ last =>
      have hlast := hbefore last (Nat.lt_succ_self last)
      have hcost := (cpu.afterSteps host last).2.cost_lt
      rw [costOf_succ] at henough
      rw [hcycles, costOf_succ]
      exact ⟨fun _ => ⟨last, rfl, by omega⟩, by omega⟩
  · rw [(cpu.stepped_afterSteps host n).record_of_error herror, hcycles]
    exact Nat.add_lt_add_left hlt _

/-! ## A program with instructions that cost nothing -/

/-- An instruction that does nothing and costs so many cycles. -/
def idlingFor (opcode cycles : UInt8) : Instruction where
  opcode
  mnemonic := "NOP"
  mode := .implied
  cycles
  operation := .nop
  size := 1

/-- Instructions of no cycle and of three cycles in turn, two of each, and an undefined opcode. -/
def unevenProgram : Processor Memory where
  registers := {}
  bus := ⟨#[0xE0, 0xE3, 0xE0, 0xE3, 0x00], by decide, by decide⟩
  instructionSet := (InstructionSet.empty.insert (idlingFor 0xE0 0) (by decide)).insert
    (idlingFor 0xE3 3) (by decide)

/-- A new host. -/
def newHost : Host SimulatedTime :=
  ⟨{}, {}⟩

theorem spend_is_shortest_uneven :
    (∃ (cpu : Processor Memory) (host : Host SimulatedTime),
      unevenProgram.spend 4 4 newHost = some ((.ok 6, cpu), host) ∧ cpu.registers.pc = 4) ∧
    ∃ (cpu : Processor Memory) (host : Host SimulatedTime),
      unevenProgram.spend 5 7 newHost =
        some ((.error (.undefinedOpcode 0 4 ⟨{ pc := 4 }, 6, 4, [0xE0, 0xE3, 0xE0, 0xE3, 0x00]⟩),
          cpu), host) ∧ cpu.record.cycles < 7 := by
  have hok : ∀ i ≤ 4, (unevenProgram.afterSteps newHost i).1 = .ok () := by
    intro i hi
    obtain rfl | rfl | rfl | rfl | rfl : i = 0 ∨ i = 1 ∨ i = 2 ∨ i = 3 ∨ i = 4 := by omega
    all_goals rfl
  have hleast : IsLeast {m | 4 ≤ unevenProgram.costOf newHost m} 4 := by
    refine ⟨by decide, fun m hm => Nat.le_of_not_lt fun hlt => ?_⟩
    have hle := unevenProgram.costOf_mono newHost (Nat.le_of_lt_succ hlt)
    exact absurd (Nat.le_trans hm hle) (by decide)
  obtain ⟨hspend, -⟩ := (spend_is_shortest unevenProgram newHost 4 4 hok).1 hleast
  obtain ⟨herror, hcycles⟩ := (spend_is_shortest unevenProgram newHost 7 4 hok).2 _ rfl (by decide)
  exact ⟨⟨_, _, hspend 4 (Nat.le_refl 4), rfl⟩, _, _, herror 5 (by decide), hcycles⟩

end Processor

end Mos6502

import Mathlib.Tactic.Linarith
import Mathlib.Tactic.LinearCombination
import Mathlib.Tactic.Positivity
import Mos6502.Proofs.Processor.Absolute

/-!
# Addition of long numbers

A program that adds two numbers of `n` bytes, lowest byte first: for each byte it loads one operand,
adds the other with the carry, and stores the sum. The carry is handed on from byte to byte, since
neither a load nor a store changes it.

**One block** (`AddsByte`). The stored byte and the carry after it are the sum of two bytes and the
carry before.

**The invariant** (`Summed`). After `i` blocks the stored number and the carry, at its place, are
the sum of the two lower parts and the first carry. Nothing else in memory has changed, so the
program and the rest of the operands are still there.

Main result: `addition_program_adds`. The overflow flag is that of the last block: a signed sum
overflows with its highest bytes.
-/

namespace Mos6502

/-! ## Signed sums -/

/-- The signed value of a number of `n` bytes. -/
def signedNumber (n x : Nat) : Int :=
  if 2 * x < 256 ^ n then x else x - 256 ^ n

/-- The signed sum of two numbers of `n` bytes and a carry is out of the range of `n` bytes, which
reaches from `-256 ^ n / 2` up to `256 ^ n / 2`. -/
def SignedOverflow (n x y carry : Nat) : Prop :=
  2 * (signedNumber n x + signedNumber n y + carry) < -256 ^ n ∨
    256 ^ n ≤ 2 * (signedNumber n x + signedNumber n y + carry)

/-- The sign of a number is that of its highest byte. -/
theorem signedNumber_succ {n low high : Nat} (hlow : low < 256 ^ n) (hhigh : high < 256) :
    signedNumber (n + 1) (low + 256 ^ n * high) = low + 256 ^ n * signedValue high := by
  have hpow : 256 ^ (n + 1) = 256 ^ n * 256 := Nat.pow_succ ..
  unfold signedNumber signedValue
  by_cases h : high < 128
  · have hle : 256 ^ n * high ≤ 256 ^ n * 127 := Nat.mul_le_mul_left _ (by omega)
    rw [if_pos h, if_pos (by omega)]
    push_cast
    rfl
  · have hle : 256 ^ n * 128 ≤ 256 ^ n * high := Nat.mul_le_mul_left _ (by omega)
    rw [if_neg h, if_neg (by omega)]
    push_cast
    ring

/-- **A signed sum overflows with its highest bytes**, if these take the carry of those below. -/
theorem signedOverflow_succ {n low low' high high' carry sum carry' : Nat}
    (hlow : low < 256 ^ n) (hlow' : low' < 256 ^ n) (hhigh : high < 256) (hhigh' : high' < 256)
    (hsum : sum < 256 ^ n) (hbelow : sum + 256 ^ n * carry' = low + low' + carry) :
    SignedOverflow (n + 1) (low + 256 ^ n * high) (low' + 256 ^ n * high') carry ↔
      signedValue high + signedValue high' + carry' < -128 ∨
        127 < signedValue high + signedValue high' + carry' := by
  have hpow : (256 : Int) ^ (n + 1) = 256 ^ n * 256 := pow_succ ..
  have hpos : (0 : Int) < 256 ^ n := by positivity
  have hsum' : (sum : Int) < 256 ^ n := by exact_mod_cast hsum
  have hbelow' : (sum : Int) + 256 ^ n * carry' = low + low' + carry := by exact_mod_cast hbelow
  have htotal : (low + 256 ^ n * signedValue high + (low' + 256 ^ n * signedValue high') + carry :
      Int) = sum + 256 ^ n * (signedValue high + signedValue high' + carry') := by
    linear_combination -hbelow'
  unfold SignedOverflow
  rw [signedNumber_succ hlow hhigh, signedNumber_succ hlow' hhigh', htotal, hpow]
  -- What is below the highest bytes is not negative and does not reach their unit.
  set top := signedValue high + signedValue high' + carry'
  constructor
  · rintro (h | h)
    · left
      by_contra hge
      nlinarith
    · right
      by_contra hge
      nlinarith
  · rintro (h | h)
    · left
      nlinarith
    · right
      nlinarith

/-! ## The program -/

/-- Load the byte at `a`, add the byte at `b` and the carry, and store the sum at `c`. -/
def additionBlock (a b c : Nat) : List UInt8 :=
  absoluteCode 0xAD a ++ absoluteCode 0x6D b ++ absoluteCode 0x8D c

/-- Add the numbers of `n` bytes at `a` and `b`, and store the sum at `c`. -/
def additionProgram (a b c : Nat) : (n : Nat) → List UInt8
  | 0 => []
  | n + 1 => additionProgram a b c n ++ additionBlock (a + n) (b + n) (c + n)

theorem length_additionProgram (a b c n : Nat) : (additionProgram a b c n).length = 9 * n := by
  induction n with
  | zero => rfl
  | succ n ih =>
    unfold additionProgram
    rw [List.length_append, ih]
    rfl

/-- Two stretches of memory have no byte in common. -/
def Apart (start length start' length' : Nat) : Prop :=
  ∀ i < length, ∀ j < length', start + i ≠ start' + j

instance (start length start' length' : Nat) : Decidable (Apart start length start' length') :=
  inferInstanceAs (Decidable (∀ i < length, ∀ j < length', start + i ≠ start' + j))

/-- The program at `p`, its operands at `a` and `b` and its result at `c` lie in memory without
wrapping. The result may take the place of the first operand, and overlaps nothing else. -/
structure AdditionLayout (memory : Memory) (p a b c n : Nat) : Prop where
  program : memory.Holds p (additionProgram a b c n)
  start_lt : p < memory.size
  program_le : p + 9 * n ≤ memory.size
  a_le : a + n ≤ memory.size
  b_le : b + n ≤ memory.size
  c_le : c + n ≤ memory.size
  apart_program : Apart c n p (9 * n)
  apart_a : c = a ∨ Apart c n a n
  apart_b : Apart c n b n

/-- Where a program is in memory, each of its blocks is. -/
theorem Memory.Holds.block {memory : Memory} {p a b c n : Nat}
    (h : memory.Holds p (additionProgram a b c n)) {i : Nat} (hi : i < n) :
    memory.Holds (p + 9 * i) (additionBlock (a + i) (b + i) (c + i)) := by
  induction n with
  | zero => exact absurd hi (Nat.not_lt_zero i)
  | succ n ih =>
    unfold additionProgram at h
    by_cases hlast : i = n
    · have hright := h.right
      rw [length_additionProgram] at hright
      rw [hlast]
      exact hright
    · exact ih h.left (by omega)

namespace Processor

/-! ## One block -/

/-- `after` has stored at `c` the sum of the bytes at `a` and `b` and the carry. -/
structure AddsByte (a b c : Nat) (cpu after : Processor Memory) : Prop where
  sum : (after.bus.get c).toNat + 256 * after.registers.carryIn =
    (cpu.bus.get a).toNat + (cpu.bus.get b).toNat + cpu.registers.carryIn
  overflow : after.registers.flag .overflow = true ↔
    signedValue (cpu.bus.get a).toNat + signedValue (cpu.bus.get b).toNat + cpu.registers.carryIn <
        -128 ∨
      127 < signedValue (cpu.bus.get a).toNat + signedValue (cpu.bus.get b).toNat +
        cpu.registers.carryIn
  others : ∀ other < cpu.bus.size, c ≠ other → after.bus.get other = cpu.bus.get other
  pc : after.registers.pc.toNat = (cpu.registers.pc.toNat + 9) % cpu.bus.size
  size : after.bus.size = cpu.bus.size
  cycles : after.record.cycles = cpu.record.cycles + 12
  instructionSet : after.instructionSet = cpu.instructionSet
  halted : after.halted = false

/-- A load, an addition and a store add a byte. -/
theorem addsByte {a b c : Nat} {cpu loaded added stored : Processor Memory}
    (hload : Executes .lda a cpu loaded) (hadd : Executes .adc b loaded added)
    (hstore : Executes .sta c added stored) (hb : b < cpu.bus.size) (hc : c < cpu.bus.size) :
    AddsByte a b c cpu stored := by
  have hsize := hadd.size.trans hload.size
  have hcarry : loaded.registers.carryIn = cpu.registers.carryIn :=
    congrArg Bool.toNat (hload.flag .carry)
  have ha : loaded.registers.a.toNat = (cpu.bus.get a).toNat := hload.accumulator
  have hb' : loaded.bus.get b = cpu.bus.get b := hload.get_of_load (fun _ _ _ => rfl) hb
  have hsum : added.registers.a.toNat = ((cpu.bus.get a).toNat + (cpu.bus.get b).toNat +
      cpu.registers.carryIn) % 256 := by
    rw [hadd.accumulator, ha, hb', hcarry]
    rfl
  have hflags : ∀ f, stored.registers.flag f =
      (sumFlags (cpu.bus.get a).toNat (cpu.bus.get b).toNat cpu.registers.carryIn f).getD
        (loaded.registers.flag f) := by
    intro f
    rw [hstore.flag, hadd.flag, ha, hb', hcarry]
    rfl
  exact {
    sum := by
      have hcell := hstore.cell c (by rw [hsize]; exact hc)
      rw [if_pos rfl] at hcell
      have hcell' : (stored.bus.get c).toNat = added.registers.a.toNat := hcell
      have hcarry' : stored.registers.carryIn = (decide (255 < (cpu.bus.get a).toNat +
          (cpu.bus.get b).toNat + cpu.registers.carryIn)).toNat :=
        congrArg Bool.toNat (hflags .carry)
      have hx := (cpu.bus.get a).toNat_lt
      have hy := (cpu.bus.get b).toNat_lt
      have hin := cpu.registers.carryIn_le
      rw [hcell', hsum, hcarry']
      by_cases hbig : 255 < (cpu.bus.get a).toNat + (cpu.bus.get b).toNat + cpu.registers.carryIn
      · rw [decide_eq_true hbig, Bool.toNat_true]
        omega
      · rw [decide_eq_false hbig, Bool.toNat_false]
        omega
    overflow := by
      rw [hflags]
      exact decide_eq_true_iff
    others := by
      intro other hother hne
      rw [hstore.get_of_ne (by rw [hsize]; exact hother) hne,
        hadd.get_of_load (fun _ _ _ => rfl) (by rw [hload.size]; exact hother),
        hload.get_of_load (fun _ _ _ => rfl) hother]
    pc := by
      rw [hstore.pc, hadd.pc, hload.pc, hsize, hload.size, Nat.mod_add_mod, Nat.add_assoc,
        Nat.mod_add_mod]
    size := hstore.size.trans hsize
    cycles := by rw [hstore.cycles, hadd.cycles, hload.cycles]
    instructionSet :=
      hstore.instructionSet.trans (hadd.instructionSet.trans hload.instructionSet)
    halted := hstore.halted }

theorem lda_mem : absoluteInstruction 0xAD "LDA" .lda ∈ standardInstructions := by
  decide

theorem adc_mem : absoluteInstruction 0x6D "ADC" .adc ∈ standardInstructions := by
  decide

theorem sta_mem : absoluteInstruction 0x8D "STA" .sta ∈ standardInstructions := by
  decide

variable {τ : Type} [TimeSource τ]

/-- **Three steps run a block** that lies at the program counter. -/
theorem afterSteps_block (start : Processor Memory) (host : Host τ) (m : Nat) {a b c : Nat}
    {cpu : Processor Memory} (hhere : (start.afterSteps host m).2 = cpu)
    (hset : cpu.instructionSet = .standard) (hrun : cpu.halted = false)
    (hblock : cpu.bus.Holds cpu.registers.pc.toNat (additionBlock a b c))
    (hpc : cpu.registers.pc.toNat + 9 ≤ cpu.bus.size) (ha : a < cpu.bus.size)
    (hb : b < cpu.bus.size) (hc : c < cpu.bus.size) :
    (∀ k, m < k → k ≤ m + 3 → (start.afterSteps host k).1 = .ok ()) ∧
      AddsByte a b c cpu (start.afterSteps host (m + 3)).2 := by
  obtain ⟨loaded, hfirst, hload⟩ :=
    afterSteps_absolute start host m hhere lda_mem nofun hset hrun hblock.left.left ha
  have hpc' : loaded.registers.pc.toNat = cpu.registers.pc.toNat + 3 := by
    rw [hload.pc, Nat.mod_eq_of_lt (by omega)]
  obtain ⟨added, hsecond, hadd⟩ :=
    afterSteps_absolute start host (m + 1) (congrArg Prod.snd hfirst) adc_mem nofun
      (hload.instructionSet.trans hset) hload.halted
      (hpc' ▸ hload.holds_of_load (fun _ _ _ => rfl) (by show _ + 3 + 3 ≤ _; omega)
        hblock.left.right)
      (by rw [hload.size]; exact hb)
  have hpc'' : added.registers.pc.toNat = cpu.registers.pc.toNat + 6 := by
    rw [hadd.pc, hpc', hload.size, Nat.mod_eq_of_lt (by omega)]
  obtain ⟨stored, hthird, hstore⟩ :=
    afterSteps_absolute start host (m + 2) (congrArg Prod.snd hsecond) sta_mem nofun
      (hadd.instructionSet.trans (hload.instructionSet.trans hset)) hadd.halted
      (hpc'' ▸ hadd.holds_of_load (fun _ _ _ => rfl)
        (by rw [hload.size]; show _ + 6 + 3 ≤ _; omega)
        (hload.holds_of_load (fun _ _ _ => rfl) (by show _ + 6 + 3 ≤ _; omega) hblock.right))
      (by rw [hadd.size, hload.size]; exact hc)
  refine ⟨fun k hlow hhigh => ?_, ?_⟩
  · obtain rfl | rfl | rfl : k = m + 1 ∨ k = m + 2 ∨ k = m + 3 := by omega
    · rw [hfirst]
    · rw [hsecond]
    · rw [hthird]
  · rw [hthird]
    exact addsByte hload hadd hstore hb hc

/-! ## The whole program -/

/-- `start` has run `i` blocks of the program, and is `cpu` now. -/
structure Summed (a b c i : Nat) (start cpu : Processor Memory) : Prop where
  sum : cpu.bus.number c i + 256 ^ i * cpu.registers.carryIn =
    start.bus.number a i + start.bus.number b i + start.registers.carryIn
  overflow : 0 < i → (cpu.registers.flag .overflow = true ↔
    SignedOverflow i (start.bus.number a i) (start.bus.number b i) start.registers.carryIn)
  others : ∀ other < start.bus.size, (∀ j < i, c + j ≠ other) →
    cpu.bus.get other = start.bus.get other
  pc : cpu.registers.pc.toNat = (start.registers.pc.toNat + 9 * i) % start.bus.size
  size : cpu.bus.size = start.bus.size
  cycles : cpu.record.cycles = start.record.cycles + 12 * i
  instructionSet : cpu.instructionSet = start.instructionSet
  halted : cpu.halted = false

variable {a b c n : Nat} {start cpu after : Processor Memory}

theorem Summed.zero (hpc : start.registers.pc.toNat < start.bus.size)
    (hrun : start.halted = false) : Summed a b c 0 start start where
  sum := by
    unfold Memory.number
    omega
  overflow := fun h => absurd h (Nat.lt_irrefl 0)
  others := fun _ _ _ => rfl
  pc := (Nat.mod_eq_of_lt hpc).symm
  size := rfl
  cycles := rfl
  instructionSet := rfl
  halted := hrun

/-- The bytes that the next block adds are those of the beginning. -/
theorem Summed.operands {i : Nat} (h : Summed a b c i start cpu)
    (hlayout : AdditionLayout start.bus start.registers.pc.toNat a b c n) (hi : i < n) :
    cpu.bus.get (a + i) = start.bus.get (a + i) ∧ cpu.bus.get (b + i) = start.bus.get (b + i) := by
  have ha := hlayout.a_le
  have hb := hlayout.b_le
  constructor
  · refine h.others _ (by omega) fun j hj => ?_
    rcases hlayout.apart_a with rfl | hapart
    · omega
    · exact hapart j (by omega) i hi
  · exact h.others _ (by omega) fun j hj => hlayout.apart_b j (by omega) i hi

/-- The next block of the program is still there. -/
theorem Summed.holds {i : Nat} (h : Summed a b c i start cpu)
    (hlayout : AdditionLayout start.bus start.registers.pc.toNat a b c n) (hi : i < n) :
    cpu.registers.pc.toNat = start.registers.pc.toNat + 9 * i ∧
      cpu.bus.Holds cpu.registers.pc.toNat (additionBlock (a + i) (b + i) (c + i)) := by
  have hle := hlayout.program_le
  have hpc : cpu.registers.pc.toNat = start.registers.pc.toNat + 9 * i := by
    rw [h.pc, Nat.mod_eq_of_lt (by omega)]
  refine ⟨hpc, ?_⟩
  rw [hpc]
  refine (hlayout.program.block hi).congr fun k hk => ?_
  have hk' : k < 9 := hk
  refine h.others _ (by omega) fun j hj => ?_
  rw [Nat.add_assoc]
  exact hlayout.apart_program j (by omega) (9 * i + k) (by omega)

/-- **One block more.** -/
theorem Summed.succ {i : Nat} (h : Summed a b c i start cpu)
    (hlayout : AdditionLayout start.bus start.registers.pc.toNat a b c n) (hi : i < n)
    (hbyte : AddsByte (a + i) (b + i) (c + i) cpu after) :
    Summed a b c (i + 1) start after := by
  obtain ⟨ha, hb⟩ := h.operands hlayout hi
  have hc := hlayout.c_le
  have hsum := hbyte.sum
  have hoverflow := hbyte.overflow
  rw [ha, hb] at hsum hoverflow
  have hbelow : after.bus.number c i = cpu.bus.number c i :=
    Memory.number_congr fun j hj => hbyte.others _ (by rw [h.size]; omega) (by omega)
  exact {
    sum := by
      unfold Memory.number
      rw [hbelow, pow_succ]
      have hscaled := congrArg (256 ^ i * ·) hsum
      have := h.sum
      simp only [Nat.mul_add] at hscaled
      linarith
    overflow := by
      intro _
      unfold Memory.number
      rw [hoverflow, signedOverflow_succ (Memory.number_lt ..) (Memory.number_lt ..)
        (UInt8.toNat_lt _) (UInt8.toNat_lt _) (Memory.number_lt ..) h.sum]
    others := by
      intro other hother hne
      rw [hbyte.others other (by rw [h.size]; exact hother) (hne i (Nat.lt_succ_self i))]
      exact h.others other hother fun j hj => hne j (Nat.lt_succ_of_lt hj)
    pc := by
      rw [hbyte.pc, h.pc, h.size, Nat.mod_add_mod, Nat.add_assoc]
      rfl
    size := hbyte.size.trans h.size
    cycles := by
      rw [hbyte.cycles, h.cycles]
      rfl
    instructionSet := hbyte.instructionSet.trans h.instructionSet
    halted := hbyte.halted }

/-- The program runs block by block. -/
theorem summed_afterSteps (host : Host τ) (hset : start.instructionSet = .standard)
    (hrun : start.halted = false)
    (hlayout : AdditionLayout start.bus start.registers.pc.toNat a b c n) {i : Nat} (hi : i ≤ n) :
    (∀ k ≤ 3 * i, (start.afterSteps host k).1 = .ok ()) ∧
      Summed a b c i start (start.afterSteps host (3 * i)).2 := by
  induction i with
  | zero =>
    refine ⟨fun k hk => ?_, .zero hlayout.start_lt hrun⟩
    rw [Nat.le_zero.mp hk]
    rfl
  | succ i ih =>
    obtain ⟨hok, hsummed⟩ := ih (Nat.le_of_succ_le hi)
    obtain ⟨hpc, hblock⟩ := hsummed.holds hlayout hi
    have hsize := hsummed.size
    have ha := hlayout.a_le
    have hb := hlayout.b_le
    have hc := hlayout.c_le
    have hle := hlayout.program_le
    obtain ⟨hok', hbyte⟩ := start.afterSteps_block host (3 * i) rfl
      (hsummed.instructionSet.trans hset) hsummed.halted hblock (by omega) (by omega) (by omega)
      (by omega)
    refine ⟨fun k hk => ?_, hsummed.succ hlayout hi hbyte⟩
    by_cases hearly : k ≤ 3 * i
    · exact hok k hearly
    · exact hok' k (by omega) (by omega)

/-- **A program adds long numbers.** All its steps succeed. After three for each byte the result is
the sum of the two numbers and the carry, reduced to its length. The carry tells whether the sum was
too long for it, and overflow whether the signed sum was. Nothing but the result has changed in
memory. -/
theorem addition_program_adds (start : Processor Memory) (host : Host τ) (a b c n : Nat)
    (hset : start.instructionSet = .standard) (hrun : start.halted = false)
    (hlayout : AdditionLayout start.bus start.registers.pc.toNat a b c n) :
    let after := (start.afterSteps host (3 * n)).2
    let total := start.bus.number a n + start.bus.number b n + start.registers.carryIn
    (∀ m ≤ 3 * n, (start.afterSteps host m).1 = .ok ()) ∧
      after.bus.number c n = total % 256 ^ n ∧
      (after.registers.flag .carry = true ↔ 256 ^ n ≤ total) ∧
      (0 < n → (after.registers.flag .overflow = true ↔
        SignedOverflow n (start.bus.number a n) (start.bus.number b n) start.registers.carryIn)) ∧
      after.registers.pc.toNat = (start.registers.pc.toNat + 9 * n) % start.bus.size ∧
      after.record.cycles = start.record.cycles + 12 * n ∧
      after.bus.size = start.bus.size ∧
      ∀ other < start.bus.size, (∀ i < n, c + i ≠ other) →
        after.bus.get other = start.bus.get other := by
  intro after total
  obtain ⟨hok, hsummed⟩ := summed_afterSteps host hset hrun hlayout (Nat.le_refl n)
  have hlt := after.bus.number_lt c n
  have hsum : after.bus.number c n + 256 ^ n * (after.registers.flag .carry).toNat = total :=
    hsummed.sum
  refine ⟨hok, ?_, ?_, hsummed.overflow, hsummed.pc, hsummed.cycles, hsummed.size, hsummed.others⟩
  · rw [← hsum, Nat.add_mul_mod_self_left, Nat.mod_eq_of_lt hlt]
  · cases hcarry : after.registers.flag .carry with
    | false =>
      rw [hcarry, Bool.toNat_false] at hsum
      exact iff_of_false nofun (by omega)
    | true =>
      rw [hcarry, Bool.toNat_true] at hsum
      exact iff_of_true rfl (by omega)

/-! ## Two bytes in place -/

/-- A program in 22 bytes that adds 0x8000 and the carry, which is set, to 0x80FF in its place. -/
def twoByteAddition : Processor Memory where
  bus := ⟨(additionProgram 18 20 18 2 ++ [0xFF, 0x80, 0x00, 0x80]).toArray, by decide, by decide⟩
  registers := { p := 0x01 }
  instructionSet := .standard

theorem addition_program_adds_twoBytes :
    (twoByteAddition.afterSteps (⟨{}, {}⟩ : Host SimulatedTime) 6).1 = .ok () ∧
      (twoByteAddition.afterSteps (⟨{}, {}⟩ : Host SimulatedTime) 6).2.bus.number 18 2 = 0x0100 ∧
      (twoByteAddition.afterSteps (⟨{}, {}⟩ : Host SimulatedTime) 6).2.registers.flag .carry =
        true ∧
      (twoByteAddition.afterSteps (⟨{}, {}⟩ : Host SimulatedTime) 6).2.registers.flag .overflow =
        true := by
  have hlayout : AdditionLayout twoByteAddition.bus twoByteAddition.registers.pc.toNat 18 20 18 2 :=
    { program := by decide
      start_lt := by decide
      program_le := by decide
      a_le := by decide
      b_le := by decide
      c_le := by decide
      apart_program := by decide
      apart_a := .inl rfl
      apart_b := by decide }
  obtain ⟨hok, hsum, hcarry, hoverflow, -⟩ :=
    addition_program_adds twoByteAddition (⟨{}, {}⟩ : Host SimulatedTime) 18 20 18 2 rfl rfl hlayout
  refine ⟨hok 6 (Nat.le_refl 6), hsum, hcarry.mpr (by decide), (hoverflow (by decide)).mpr ?_⟩
  exact .inl (by decide)

end Processor

end Mos6502

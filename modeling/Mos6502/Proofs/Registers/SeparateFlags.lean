import Mos6502.Proofs.Machine.Reference
import Mos6502.Proofs.Registers.Text

/-!
# Flags kept apart

Registers without a status byte: four cells, the program counter, seven flags and a spare bit, all
of them independent (`SeparateFlags`). An update gives new values to some of these places and has
nothing to do with the others (`RegisterUpdate.givenFlag` and its companions). This is what the
packed registers are compared with.

**One update** (`separate_apply`). The packed registers after an update, taken apart, are the
separate ones after it. For a flag this is `flag_setFlag`. Replacing the whole status register gives
each flag the bit at its position.

**Observations** (`agrees_separate`). What can be seen of packed registers is seen of the separate
ones: the status register is the number of their bits, and its letters are those of the flags that
are set.

Main result: `packed_refines_separate`.
-/

namespace Mos6502

/-! ## Separate flags -/

/-- Registers whose flags are kept apart. -/
structure SeparateFlags where
  a : UInt8
  y : UInt8
  x : UInt8
  s : UInt8
  pc : UInt16
  flag : Flag → Bool
  /-- The bit that belongs to no flag. -/
  spare : Bool

namespace SeparateFlags

variable (regs : SeparateFlags)

/-- The bits of the status register with their letters, from bit 7 down. -/
def statusBits : List (Bool × Char) :=
  [(regs.flag .negative, 'N'), (regs.flag .overflow, 'V'), (regs.spare, '-'), (regs.flag .brk, 'B'),
    (regs.flag .decimal, 'D'), (regs.flag .interruptDisable, 'I'), (regs.flag .zero, 'Z'),
    (regs.flag .carry, 'C')]

/-- The status register: the number that its bits are the digits of. -/
def status : UInt8 :=
  .ofNat (regs.statusBits.foldl (fun n (bit, _) => 2 * n + bit.toNat) 0)

/-- The value of a byte register. -/
def get : Register → UInt8
  | .a => regs.a
  | .y => regs.y
  | .x => regs.x
  | .s => regs.s
  | .p => regs.status

/-- The letters of the bits that are set. -/
def letters : List Char :=
  regs.statusBits.map fun (bit, letter) => if bit then letter else '.'

/-- One line: the program counter, the cells, and the status register by its letters. -/
def text : String :=
  s!"PC={Hexadecimal.word regs.pc} A={Hexadecimal.byte regs.a} X={Hexadecimal.byte regs.x} " ++
    s!"Y={Hexadecimal.byte regs.y} S={Hexadecimal.byte regs.s} P={Hexadecimal.byte regs.status} " ++
    s!"[{String.ofList regs.letters}]"

end SeparateFlags

/-! ## Updates -/

/-- A change of registers. -/
inductive RegisterUpdate where
  | set (register : Register) (value : UInt8)
  | setPc (pc : UInt16)
  | setFlag (f : Flag) (on : Bool)
  /-- Zero and negative are those of a result. -/
  | signOf (result : UInt8)
  /-- Carry is that of an unsigned sum. -/
  | carryOf (sum : UInt16)
  /-- Overflow is that of a signed sum. -/
  | overflowOf (lhs rhs result : UInt8)

namespace RegisterUpdate

/-- Make an update of packed registers. -/
def apply (regs : Registers) : RegisterUpdate → Registers
  | set register value => regs.set register value
  | setPc pc => regs.setPc pc
  | setFlag f on => regs.setFlag f on
  | signOf result => regs.withSignOf result
  | carryOf sum => regs.withCarryOf sum
  | overflowOf lhs rhs result => regs.withOverflowOf lhs rhs result

/-- The value that an update gives to a byte register as a whole. -/
def givenCell (register : Register) : RegisterUpdate → Option UInt8
  | set r value => if r = register then some value else none
  | _ => none

/-- The value that an update gives to the program counter. -/
def givenPc : RegisterUpdate → Option UInt16
  | setPc pc => some pc
  | _ => none

/-- The value that an update gives to a flag. -/
def givenFlag (f : Flag) : RegisterUpdate → Option Bool
  | set .p value => some (value.toNat.testBit f.position)
  | setFlag g on => if f = g then some on else none
  | signOf result => signFlags result.toNat f
  | carryOf sum => if f = .carry then some (255 < sum.toNat) else none
  | overflowOf lhs rhs result =>
    if f = .overflow then
      some ((128 ≤ lhs.toNat ↔ 128 ≤ rhs.toNat) ∧ ¬(128 ≤ lhs.toNat ↔ 128 ≤ result.toNat))
    else
      none
  | _ => none

/-- The value that an update gives to the spare bit. -/
def givenSpare : RegisterUpdate → Option Bool
  | set .p value => some (value.toNat.testBit 5)
  | _ => none

/-- The flags that an update of flags owns. -/
def owned : RegisterUpdate → Option (List Flag)
  | setFlag f _ => some [f]
  | signOf _ => some [.zero, .negative]
  | carryOf _ => some [.carry]
  | overflowOf .. => some [.overflow]
  | _ => none

theorem given_of_owned {update : RegisterUpdate} {flags : List Flag} (h : flags ∈ update.owned) :
    (∀ register, update.givenCell register = none) ∧ update.givenPc = none ∧
      update.givenSpare = none := by
  cases update with
  | set | setPc => cases h
  | _ => exact ⟨fun _ => rfl, rfl, rfl⟩

theorem givenFlag_of_not_mem {update : RegisterUpdate} {flags : List Flag} {f : Flag}
    (h : flags ∈ update.owned) (hf : f ∉ flags) : update.givenFlag f = none := by
  cases update with
  | set | setPc => cases h
  | setFlag | carryOf | overflowOf =>
    cases h
    exact if_neg (mt List.mem_singleton.mpr hf)
  | signOf result =>
    cases h
    cases f with
    | zero | negative => exact absurd (by decide) hf
    | _ => rfl

/-- Make an update of separate flags. What is given no value keeps the one it has. -/
def applySeparately (regs : SeparateFlags) (update : RegisterUpdate) : SeparateFlags where
  a := (update.givenCell .a).getD regs.a
  y := (update.givenCell .y).getD regs.y
  x := (update.givenCell .x).getD regs.x
  s := (update.givenCell .s).getD regs.s
  pc := update.givenPc.getD regs.pc
  flag f := (update.givenFlag f).getD (regs.flag f)
  spare := update.givenSpare.getD regs.spare

end RegisterUpdate

namespace Registers

/-! ## One update -/

/-- The registers with their flags taken apart. -/
def separate (regs : Registers) : SeparateFlags where
  a := regs.a
  y := regs.y
  x := regs.x
  s := regs.s
  pc := regs.pc
  flag := regs.flag
  spare := regs.spare

theorem get_apply (regs : Registers) (update : RegisterUpdate) {register : Register}
    (h : register ≠ .p) :
    (update.apply regs).get register = (update.givenCell register).getD (regs.get register) := by
  cases update with
  | set r value =>
    rw [RegisterUpdate.apply, get_set, RegisterUpdate.givenCell]
    split <;> rfl
  | _ => cases register <;> first | rfl | contradiction

theorem pc_apply (regs : Registers) (update : RegisterUpdate) :
    (update.apply regs).pc = update.givenPc.getD regs.pc := by
  cases update with
  | set r value => cases r <;> rfl
  | _ => rfl

theorem flag_apply (regs : Registers) (update : RegisterUpdate) (f : Flag) :
    (update.apply regs).flag f = (update.givenFlag f).getD (regs.flag f) := by
  cases update with
  | set r value =>
    cases r with
    | p => exact flag_eq_statusBit _ f
    | _ => rfl
  | setPc pc => rfl
  | setFlag g on =>
    rw [RegisterUpdate.apply, flag_setFlag, RegisterUpdate.givenFlag]
    split <;> rfl
  | signOf result => exact regs.flag_withSignOf result f
  | carryOf sum =>
    rw [RegisterUpdate.apply, withCarryOf, flag_setFlag, RegisterUpdate.givenFlag]
    split
    · rw [Option.getD_some, decide_eq_decide]
      exact UInt16.lt_iff_toNat_lt
    · rfl
  | overflowOf lhs rhs result =>
    rw [RegisterUpdate.apply, withOverflowOf, flag_setFlag, RegisterUpdate.givenFlag]
    split
    · rw [Option.getD_some, Bool.eq_iff_iff, Bool.and_eq_true, beq_iff_eq, bne_iff_ne,
        decide_eq_true_iff, ne_eq, signBit_eq_iff, signBit_eq_iff]
    · rfl

theorem spare_apply (regs : Registers) (update : RegisterUpdate) :
    (update.apply regs).spare = update.givenSpare.getD regs.spare := by
  cases update with
  | set r value => cases r <;> rfl
  | setPc pc => rfl
  | setFlag f on => exact regs.spare_setFlag f on
  | signOf result => exact regs.spare_withSignOf result
  | carryOf sum => exact regs.spare_setFlag .carry _
  | overflowOf lhs rhs result => exact regs.spare_setFlag .overflow _

/-- **Taken apart, an update is that of the separate flags.** -/
theorem separate_apply (regs : Registers) (update : RegisterUpdate) :
    (update.apply regs).separate = update.applySeparately regs.separate := by
  have hcell (register : Register) (h : register ≠ .p) := regs.get_apply update h
  simp only [separate, RegisterUpdate.applySeparately, SeparateFlags.mk.injEq]
  exact ⟨hcell .a nofun, hcell .y nofun, hcell .x nofun, hcell .s nofun, regs.pc_apply update,
    funext (regs.flag_apply update), regs.spare_apply update⟩

/-! ## Observations -/

/-- Packed registers and separate flags look the same. -/
structure Agrees (regs : Registers) (separate : SeparateFlags) : Prop where
  get : ∀ register, regs.get register = separate.get register
  pc : regs.pc = separate.pc
  status : regs.p = separate.status
  flag : ∀ f, regs.flag f = separate.flag f
  text : regs.text = separate.text

theorem spare_eq (regs : Registers) : regs.spare = decide (regs.p &&& 0x20 ≠ 0) := by
  have h : ∀ v : BitVec 8, v.getLsbD 5 = decide (UInt8.ofBitVec v &&& 0x20 ≠ 0) := by
    decide +kernel
  exact h regs.p.toBitVec

theorem status_separate (regs : Registers) : regs.separate.status = regs.p := by
  have h : ∀ v : BitVec 8, UInt8.ofNat ([7, 6, 5, 4, 3, 2, 1, 0].foldl
      (fun n i => 2 * n + (v.getLsbD i).toNat) 0) = UInt8.ofBitVec v := by
    decide +kernel
  rw [← show UInt8.ofBitVec regs.p.toBitVec = regs.p from rfl, ← h]
  simp only [SeparateFlags.status, SeparateFlags.statusBits, separate, flag_eq_statusBit]
  rfl

theorem letters_separate (regs : Registers) :
    String.ofList regs.separate.letters = statusText regs.p := by
  unfold SeparateFlags.letters SeparateFlags.statusBits statusText
  simp only [separate, flag, spare_eq, List.map_cons, List.map_nil, decide_eq_true_eq]
  rfl

/-- **Packed registers look the same** as their flags taken apart. -/
theorem agrees_separate (regs : Registers) : regs.Agrees regs.separate where
  get register := by
    cases register with
    | p => exact regs.status_separate.symm
    | _ => rfl
  pc := rfl
  status := regs.status_separate.symm
  flag _ := rfl
  text := by
    unfold text SeparateFlags.text
    rw [letters_separate, status_separate]
    rfl

end Registers

/-! ## Updates in a row -/

/-- The value given last, or the old one if none is given. -/
def lastGiven {ι α : Type} (given : ι → Option α) (updates : List ι) (old : α) : α :=
  (updates.filterMap given).getLast?.getD old

/-- What each update gives or keeps is in the end what was given last. -/
theorem foldl_eq_lastGiven {ι α σ : Type} {step : σ → ι → σ} (view : σ → α)
    {given : ι → Option α} (h : ∀ state update, view (step state update) =
      (given update).getD (view state)) (updates : List ι) (state : σ) :
    view (updates.foldl step state) = lastGiven given updates (view state) := by
  induction updates generalizing state with
  | nil => rfl
  | cons update rest ih =>
    rw [List.foldl_cons, ih, h, lastGiven, lastGiven]
    cases hgiven : given update with
    | none => rw [List.filterMap_cons_none hgiven, Option.getD_none]
    | some value => rw [List.filterMap_cons_some hgiven, List.getLast?_cons, Option.getD_some,
        Option.getD_some]

/-- Make updates of separate flags one after another. -/
def SeparateFlags.after (regs : SeparateFlags) (updates : List RegisterUpdate) : SeparateFlags :=
  updates.foldl RegisterUpdate.applySeparately regs

namespace Registers

/-- Make updates one after another. -/
def after (regs : Registers) (updates : List RegisterUpdate) : Registers :=
  updates.foldl RegisterUpdate.apply regs

theorem separate_after (updates : List RegisterUpdate) (regs : Registers) :
    (regs.after updates).separate = regs.separate.after updates := by
  induction updates generalizing regs with
  | nil => rfl
  | cons update rest ih =>
    rw [after, List.foldl_cons, SeparateFlags.after, List.foldl_cons, ← separate_apply]
    exact ih (update.apply regs)

/-- In `now` every place holds what it was given last, and if it was given nothing, what it held
before. -/
structure HoldsLastGiven (before : Registers) (updates : List RegisterUpdate) (now : Registers) :
    Prop where
  cell : ∀ register, register ≠ .p → now.get register =
    lastGiven (·.givenCell register) updates (before.get register)
  pc : now.pc = lastGiven (·.givenPc) updates before.pc
  flag : ∀ f, now.flag f = lastGiven (·.givenFlag f) updates (before.flag f)
  spare : now.spare = lastGiven (·.givenSpare) updates before.spare

theorem holdsLastGiven_after (regs : Registers) (updates : List RegisterUpdate) :
    regs.HoldsLastGiven updates (regs.after updates) where
  cell register h := foldl_eq_lastGiven (·.get register)
    (fun regs update => regs.get_apply update h) updates regs
  pc := foldl_eq_lastGiven (·.pc) pc_apply updates regs
  flag f := foldl_eq_lastGiven (·.flag f) (fun regs update => regs.flag_apply update f)
    updates regs
  spare := foldl_eq_lastGiven spare spare_apply updates regs

/-- Only the given flags differ. -/
structure DiffersInFlags (before : Registers) (flags : List Flag) (now : Registers) : Prop where
  cell : ∀ register, register ≠ .p → now.get register = before.get register
  pc : now.pc = before.pc
  flag : ∀ f, f ∉ flags → now.flag f = before.flag f
  spare : now.spare = before.spare

/-- **An update of flags** changes those that it owns and nothing else. -/
theorem differsInFlags_apply (regs : Registers) {update : RegisterUpdate} {flags : List Flag}
    (h : flags ∈ update.owned) : regs.DiffersInFlags flags (update.apply regs) := by
  obtain ⟨hcell, hpc, hspare⟩ := RegisterUpdate.given_of_owned h
  refine ⟨fun register hregister => ?_, ?_, fun f hf => ?_, ?_⟩
  · rw [regs.get_apply update hregister, hcell register]
    rfl
  · rw [regs.pc_apply update, hpc]
    rfl
  · rw [regs.flag_apply update f, RegisterUpdate.givenFlag_of_not_mem h hf]
    rfl
  · rw [regs.spare_apply update, hspare]
    rfl

/-- **Packed registers are separate flags.** After any updates they look like the separate ones,
hold what was given last, and show the same status in digits and in letters. -/
theorem packed_refines_separate (regs : Registers) (updates : List RegisterUpdate) :
    (regs.after updates).Agrees (regs.separate.after updates) ∧
      regs.HoldsLastGiven updates (regs.after updates) ∧
      (∀ update : RegisterUpdate, ∀ flags ∈ update.owned,
        (regs.after updates).DiffersInFlags flags (update.apply (regs.after updates))) ∧
      Spelled 16 (shownDigits (regs.after updates).text) (regs.after updates).p.toNat ∧
      lettersValue (shownLetters (regs.after updates).text) = (regs.after updates).p.toNat := by
  refine ⟨?_, regs.holdsLastGiven_after updates, fun _ _ => differsInFlags_apply _,
    (regs.after updates).shown_status⟩
  rw [← separate_after]
  exact (regs.after updates).agrees_separate

/-- A new status register counts for all flags, and what comes after it for its own. -/
example : (({} : Registers).after [.setFlag .carry true, .set .p 0xAA, .signOf 0x80]).p = 0xA8 := by
  decide

end Registers

end Mos6502

import Mathlib.Data.List.Forall2
import Mos6502.Instruction.Set

/-!
# Instruction sets as tables

Everything an instruction set can be asked follows from the definitions in it, whatever the order
in which they are listed.

**Names** (`isCalled_iff`). Two names are the same up to case if they have the same characters, but
that a letter from A to Z may stand for its small form. No other letters are taken for each other.

**The order** (`ascending_toList`). The definitions of an instruction set come out in ascending
order of their opcodes, so none comes out twice and a search finds the smallest opcode first.

**Main result** (`tabulates_of_perm`). If the definitions of an instruction set are those of a list,
then every query of the set is answered by the list.
-/

namespace Mos6502

/-! ## Names up to case -/

namespace Instruction

/-- The same character, or the two forms of one letter from A to Z. -/
def SameLetter (c d : Char) : Prop :=
  c = d ∨ ('A'.toNat ≤ c.toNat ∧ c.toNat ≤ 'Z'.toNat ∧ d.toNat = c.toNat + 32) ∨
    ('A'.toNat ≤ d.toNat ∧ d.toNat ≤ 'Z'.toNat ∧ c.toNat = d.toNat + 32)

/-- The same characters, but for the case of the letters A to Z. -/
def SameUpToCase (s t : String) : Prop :=
  List.Forall₂ SameLetter s.toList t.toList

theorem toNat_toLower (c : Char) :
    c.toLower.toNat =
      if 'A'.toNat ≤ c.toNat ∧ c.toNat ≤ 'Z'.toNat then c.toNat + 32 else c.toNat := by
  unfold Char.toLower
  by_cases h : 'A'.toNat ≤ c.toNat ∧ c.toNat ≤ 'Z'.toNat
  · have hsmall : c.toNat + 32 < 2 ^ 32 :=
      Nat.lt_of_le_of_lt (Nat.add_le_add_right h.2 32) (by decide)
    rw [dif_pos (show c.val ≥ 'A'.val ∧ c.val ≤ 'Z'.val from h), if_pos h]
    show (c.val + 32).toNat = c.toNat + 32
    rw [UInt32.toNat_add]
    exact Nat.mod_eq_of_lt hsmall
  · rw [dif_neg (show ¬(c.val ≥ 'A'.val ∧ c.val ≤ 'Z'.val) from h), if_neg h]

theorem toLower_eq_toLower_iff (c d : Char) : c.toLower = d.toLower ↔ SameLetter c d := by
  unfold SameLetter
  rw [← Char.toNat_inj, ← Char.toNat_inj, toNat_toLower, toNat_toLower]
  have hA : 'A'.toNat = 65 := rfl
  have hZ : 'Z'.toNat = 90 := rfl
  split <;> split <;> omega

/-- **Names are compared up to case.** -/
theorem isCalled_iff (instruction : Instruction) (mnemonic : String) :
    instruction.isCalled mnemonic = true ↔ SameUpToCase instruction.mnemonic mnemonic := by
  unfold isCalled SameUpToCase
  rw [beq_iff_eq, ← List.forall₂_eq_eq_eq, List.forall₂_map_left_iff, List.forall₂_map_right_iff]
  simp only [toLower_eq_toLower_iff]

end Instruction

namespace InstructionSet

variable {instrs : InstructionSet}

/-! ## Definitions in the order of their opcodes -/

/-- An instruction is in the slot of its opcode. -/
theorem opcode_of_slot {k : Nat} (hk : k < 256) {d : Instruction}
    (h : instrs.slots[k] = some d) : d.opcode.toNat = k := by
  have hlookup : instrs.slots.lookup (UInt8.ofNatLT k hk) = some d := by
    simpa [InstructionSlots.lookup] using h
  rw [(instrs.wellFormed _ d hlookup).1, UInt8.toNat_ofNatLT]

theorem mem_toList {d : Instruction} : d ∈ instrs.toList ↔ instrs.get d.opcode = some d := by
  unfold toList get InstructionSlots.lookup
  rw [List.mem_filterMap]
  constructor
  · rintro ⟨slot, hslot, hd⟩
    obtain rfl : slot = some d := hd
    obtain ⟨k, hk, hget⟩ := Vector.getElem_of_mem (Vector.mem_toList_iff.mp hslot)
    obtain rfl := opcode_of_slot hk hget
    exact hget
  · intro hget
    exact ⟨some d, Vector.mem_toList_iff.mpr (Vector.mem_of_getElem hget), rfl⟩

/-- **Definitions come in ascending order** of their opcodes. -/
theorem ascending_toList (instrs : InstructionSet) :
    instrs.toList.Pairwise fun d e => d.opcode < e.opcode := by
  unfold toList
  rw [List.pairwise_filterMap, List.pairwise_iff_getElem]
  intro i j hi hj hlt d hd e he
  have hi' : i < 256 := by simpa using hi
  have hj' : j < 256 := by simpa using hj
  rw [UInt8.lt_iff_toNat_lt, opcode_of_slot hi' (by simpa using hd),
    opcode_of_slot hj' (by simpa using he)]
  exact hlt

theorem nodup_toList (instrs : InstructionSet) : instrs.toList.Nodup := by
  refine instrs.ascending_toList.imp fun hlt heq => ?_
  rw [heq] at hlt
  exact UInt8.lt_irrefl _ hlt

theorem toList_empty : empty.toList = [] :=
  List.eq_nil_iff_forall_not_mem.mpr fun d hd => by
    rw [mem_toList, get_empty] at hd
    cases hd

/-- A definition put into an empty slot is one definition more. -/
theorem toList_insert {d : Instruction} (allowed : d.operation.allows d.mode)
    (hfree : instrs.get d.opcode = none) :
    (instrs.insert d allowed).toList.Perm (instrs.toList ++ [d]) := by
  have hnot : d ∉ instrs.toList := by
    rw [mem_toList, hfree]
    exact nofun
  have hnodup : (instrs.toList ++ [d]).Nodup := by
    rw [List.nodup_append]
    refine ⟨instrs.nodup_toList, by simp, fun e he e' he' heq => hnot ?_⟩
    rw [← List.mem_singleton.mp he', ← heq]
    exact he
  rw [List.perm_ext_iff_of_nodup (nodup_toList _) hnodup]
  intro e
  rw [List.mem_append, List.mem_singleton, mem_toList, mem_toList, get_insert]
  by_cases heq : d.opcode = e.opcode
  · rw [if_pos heq, ← heq, hfree]
    simp [eq_comm]
  · rw [if_neg heq]
    exact ⟨.inl, fun h => h.resolve_right fun he => heq (he ▸ rfl)⟩

/-! ## Queries -/

/-- In a list in ascending order, the first definition that fits is the one with the smallest
opcode. -/
theorem find?_eq_some_iff {p : Instruction → Bool} {list : List Instruction}
    (h : list.Pairwise fun d e => d.opcode < e.opcode) (d : Instruction) :
    list.find? p = some d ↔
      d ∈ list ∧ p d = true ∧ ∀ e ∈ list, p e = true → d.opcode ≤ e.opcode := by
  induction list with
  | nil => simp
  | cons a rest ih =>
    obtain ⟨hfirst, hrest⟩ := List.pairwise_cons.mp h
    by_cases ha : p a = true
    · rw [List.find?_cons_of_pos ha, Option.some_inj]
      constructor
      · rintro rfl
        refine ⟨List.mem_cons_self, ha, fun e he _ => ?_⟩
        rcases List.mem_cons.mp he with rfl | he
        · exact UInt8.le_refl _
        · exact UInt8.le_of_lt (hfirst e he)
      · rintro ⟨hd, -, hsmallest⟩
        rcases List.mem_cons.mp hd with rfl | hd
        · rfl
        · exact absurd (hsmallest a List.mem_cons_self ha) (UInt8.not_le.mpr (hfirst d hd))
    · have hmem : ∀ e, p e = true → (e ∈ a :: rest ↔ e ∈ rest) := by
        intro e he
        rw [List.mem_cons, or_iff_right]
        rintro rfl
        exact ha he
      rw [List.find?_cons_of_neg ha, ih hrest]
      constructor
      · rintro ⟨hd, hp, hsmallest⟩
        exact ⟨(hmem d hp).mpr hd, hp, fun e he hpe => hsmallest e ((hmem e hpe).mp he) hpe⟩
      · rintro ⟨hd, hp, hsmallest⟩
        exact ⟨(hmem d hp).mp hd, hp, fun e he hpe => hsmallest e ((hmem e hpe).mpr he) hpe⟩

/-- The definition has this mode, and this name up to case. -/
def Fits (mnemonic : String) (mode : AddressingMode) (d : Instruction) : Prop :=
  d.mode = mode ∧ Instruction.SameUpToCase d.mnemonic mnemonic

theorem find_eq_some_iff (mnemonic : String) (mode : AddressingMode) (d : Instruction) :
    instrs.find mnemonic mode = some d ↔
      d ∈ instrs.toList ∧ Fits mnemonic mode d ∧
        ∀ e ∈ instrs.toList, Fits mnemonic mode e → d.opcode ≤ e.opcode := by
  unfold find
  rw [find?_eq_some_iff instrs.ascending_toList]
  simp only [Bool.and_eq_true, decide_eq_true_eq, Instruction.isCalled_iff, Fits]

theorem find_eq_none_iff (mnemonic : String) (mode : AddressingMode) :
    instrs.find mnemonic mode = none ↔ ∀ d ∈ instrs.toList, ¬Fits mnemonic mode d := by
  unfold find
  rw [List.find?_eq_none]
  simp only [Bool.and_eq_true, decide_eq_true_eq, Instruction.isCalled_iff, Fits]

/-- Every query of the instruction set is answered by a list of definitions. -/
structure Tabulates (instrs : InstructionSet) (definitions : List Instruction) : Prop where
  get (opcode : UInt8) : instrs.get opcode = definitions.find? fun d => d.opcode = opcode
  iterated : instrs.toList.Perm definitions
  ascending : instrs.toList.Pairwise fun d e => d.opcode < e.opcode
  size : instrs.size = definitions.length
  isEmpty : instrs.isEmpty = true ↔ definitions.length = 0
  find_eq_some (mnemonic : String) (mode : AddressingMode) (d : Instruction) :
    instrs.find mnemonic mode = some d ↔
      d ∈ definitions ∧ Fits mnemonic mode d ∧
        ∀ e ∈ definitions, Fits mnemonic mode e → d.opcode ≤ e.opcode
  find_eq_none (mnemonic : String) (mode : AddressingMode) :
    instrs.find mnemonic mode = none ↔ ∀ d ∈ definitions, ¬Fits mnemonic mode d

/-- An opcode is looked up in a list of the same definitions. -/
theorem get_eq_find? {definitions : List Instruction} (h : instrs.toList.Perm definitions)
    (opcode : UInt8) : instrs.get opcode = definitions.find? fun d => d.opcode = opcode := by
  cases hfind : definitions.find? fun d => d.opcode = opcode with
  | none =>
    rw [List.find?_eq_none] at hfind
    refine Option.eq_none_iff_forall_ne_some.mpr fun d hget => ?_
    have hopcode := opcode_of_get hget
    have hd : d ∈ instrs.toList := by rwa [mem_toList, hopcode]
    exact hfind d (h.subset hd) (decide_eq_true hopcode)
  | some d =>
    have hopcode : d.opcode = opcode := by simpa using List.find?_some hfind
    rw [← hopcode]
    exact mem_toList.mp (h.symm.subset (List.mem_of_find?_eq_some hfind))

/-- **An instruction set is a table of its definitions.** -/
theorem tabulates_of_perm {definitions : List Instruction}
    (h : instrs.toList.Perm definitions) : instrs.Tabulates definitions where
  get := get_eq_find? h
  iterated := h
  ascending := instrs.ascending_toList
  size := h.length_eq
  isEmpty := by rw [isEmpty, size, h.length_eq, beq_iff_eq]
  find_eq_some mnemonic mode d := by simp only [find_eq_some_iff, h.mem_iff]
  find_eq_none mnemonic mode := by simp only [find_eq_none_iff, h.mem_iff]

end InstructionSet

end Mos6502

import Mos6502.Proofs.Addressing.OperandField
import Mos6502.Proofs.Snapshot

/-!
# The line of registers, column by column

Every field of the line has a fixed width, so what is shown of the status register is found by its
columns: two digits behind `P=`, and eight letters in brackets (`shownDigits`, `shownLetters`).

Main result: `shown_status`, the digits and the letters say the same byte.
-/

namespace Mos6502

namespace Registers

theorem chars_text (regs : Registers) :
    regs.text.toList =
      "PC=".toList ++ (Hexadecimal.digits 4 regs.pc.toNat ++
        (" A=".toList ++ (Hexadecimal.digits 2 regs.a.toNat ++
        (" X=".toList ++ (Hexadecimal.digits 2 regs.x.toNat ++
        (" Y=".toList ++ (Hexadecimal.digits 2 regs.y.toNat ++
        (" S=".toList ++ (Hexadecimal.digits 2 regs.s.toNat ++
        (" P=".toList ++ (Hexadecimal.digits 2 regs.p.toNat ++
        (" [".toList ++ ((statusText regs.p).toList ++ "]".toList))))))))))))) := by
  have hline := toList_text regs
  rw [String.toList_append, show "]\n".toList = "]".toList ++ "\n".toList from rfl] at hline
  simp only [← List.append_assoc] at hline ⊢
  exact List.append_cancel_right hline

theorem newline_not_mem_statusText (status : UInt8) : '\n' ∉ (statusText status).toList := by
  rw [statusText, String.toList_ofList, List.mem_map]
  rintro ⟨⟨bit, letter⟩, hmem, hletter⟩
  have hother : ∀ p ∈ statusLetters, p.2 ≠ '\n' := by decide
  replace hletter : (if status &&& bit ≠ 0 then letter else '.') = '\n' := hletter
  by_cases hbit : status &&& bit ≠ 0
  · rw [if_pos hbit] at hletter
    exact hother _ hmem hletter
  · rw [if_neg hbit] at hletter
    cases hletter

/-- The line has no end within. -/
theorem newline_not_mem_text (regs : Registers) : '\n' ∉ regs.text.toList := by
  have hdigits (width n : Nat) : '\n' ∉ Hexadecimal.digits width n :=
    (spelled_hexadecimal width n).not_mem (by decide)
  rw [chars_text]
  simp only [List.mem_append, hdigits, newline_not_mem_statusText]
  decide

/-! ## What is shown of the status register -/

/-- The two digits behind `P=`. -/
def shownDigits (text : String) : List Char :=
  (text.toList.drop 30).take 2

/-- The eight letters in brackets. -/
def shownLetters (text : String) : List Char :=
  (text.toList.drop 34).take 8

/-- The number whose ones have letters and whose zeros have full stops, from the highest bit
down. -/
def lettersValue (letters : List Char) : Nat :=
  letters.foldl (fun n c => 2 * n + if c = '.' then 0 else 1) 0

theorem lettersValue_statusText (status : UInt8) :
    lettersValue (statusText status).toList = status.toNat := by
  have h : ∀ v : BitVec 8,
      lettersValue (statusText (UInt8.ofBitVec v)).toList = v.toNat := by
    intro v
    rw [statusText, String.toList_ofList]
    revert v
    decide +kernel
  exact h status.toBitVec

/-- The digits of the status register are the last ones, after thirty characters. -/
theorem chars_text_status (regs : Registers) :
    ∃ front : List Char, front.length = 30 ∧
      regs.text.toList = front ++ (Hexadecimal.digits 2 regs.p.toNat ++
        (" [".toList ++ ((statusText regs.p).toList ++ "]".toList))) := by
  have hbyte (b : UInt8) : (Hexadecimal.digits 2 b.toNat).length = 2 :=
    Hexadecimal.length_digits (by decide) b.toNat_lt
  have hword (w : UInt16) : (Hexadecimal.digits 4 w.toNat).length = 4 :=
    Hexadecimal.length_digits (by decide) w.toNat_lt
  rw [chars_text]
  simp only [← List.append_assoc]
  refine ⟨_, ?_, rfl⟩
  simp only [List.length_append, hbyte, hword]
  rfl

theorem shownDigits_text (regs : Registers) :
    shownDigits regs.text = Hexadecimal.digits 2 regs.p.toNat := by
  obtain ⟨front, hfront, htext⟩ := regs.chars_text_status
  rw [shownDigits, htext, List.drop_left' hfront,
    List.take_left' (Hexadecimal.length_digits (by decide) regs.p.toNat_lt)]

theorem shownLetters_text (regs : Registers) :
    shownLetters regs.text = (statusText regs.p).toList := by
  obtain ⟨front, hfront, htext⟩ := regs.chars_text_status
  have hdigits : (Hexadecimal.digits 2 regs.p.toNat).length = 2 :=
    Hexadecimal.length_digits (by decide) regs.p.toNat_lt
  have hlength : (front ++ Hexadecimal.digits 2 regs.p.toNat ++ " [".toList).length = 34 := by
    rw [List.length_append, List.length_append, hfront, hdigits]
    rfl
  rw [shownLetters, htext, ← List.append_assoc, ← List.append_assoc, List.drop_left' hlength,
    List.take_left' (length_statusText regs.p)]

/-- **The digits and the letters** say the same byte. -/
theorem shown_status (regs : Registers) :
    Spelled 16 (shownDigits regs.text) regs.p.toNat ∧
      lettersValue (shownLetters regs.text) = regs.p.toNat := by
  rw [shownDigits_text, shownLetters_text]
  exact ⟨spelled_hexadecimal 2 _, lettersValue_statusText regs.p⟩

end Registers

end Mos6502

import Mathlib.Data.List.Basic
import Mathlib.Data.Nat.Digits.Defs
import Mos6502.Addressing.Mode
import Mos6502.Proofs.Text.Reader

/-!
# Operand fields read back

The operand field of a disassembled instruction tells the mode and the operand bytes of the mode, or
that some of them are missing. So no two modes have a field in common, and in one mode no two
operands.

**Reading** (`OperandField.ofChars?`). Every mode has a form of its own, by the punctuation around
its digits. The forms `$80,X` and `$1234` are of one length, and are told apart because a comma is
no digit.

Main result: `AddressingMode.ofChars?_operandText`.
-/

namespace Mos6502

theorem Hexadecimal.length_digits {width n : Nat} (hwidth : 0 < width) (h : n < 16 ^ width) :
    (digits width n).length = width := by
  unfold digits
  rw [List.length_leftpad, List.length_map]
  exact Nat.max_eq_left (Nat.toDigits_length 16 n width hwidth h)

/-! ## Reading -/

namespace OperandField

/-- The byte that two characters spell. -/
def byteOf? (x y : Char) : Option UInt8 :=
  if [x, y].all fun c => (digitValue 16 c).isSome then
    some (numeralValue 16 [x, y]).toUInt8
  else
    none

/-- The bytes, low one first, of the word that four characters spell. -/
def wordOf? (a b c d : Char) : Option (List UInt8) := do
  return [← byteOf? c d, ← byteOf? a b]

/-- The mode and the operand bytes that a field tells, if no byte is missing. -/
def ofChars? : List Char → Option (AddressingMode × Option (List UInt8))
  | [] => some (.implied, some [])
  | ['A'] => some (.accumulator, some [])
  | ['#', '$', x, y] => some (.immediate, (byteOf? x y).map ([·]))
  | ['$', x, y] => some (.zeroPage, (byteOf? x y).map ([·]))
  | ['$', a, b, c, d] =>
    if c = ',' then some (.zeroPageX, (byteOf? a b).map ([·]))
    else some (.absolute, wordOf? a b c d)
  | ['$', a, b, c, d, ',', 'X'] => some (.absoluteX, wordOf? a b c d)
  | ['$', a, b, c, d, ',', 'Y'] => some (.absoluteY, wordOf? a b c d)
  | ['(', '$', x, y, ',', 'X', ')'] => some (.indirectX, (byteOf? x y).map ([·]))
  | ['(', '$', x, y, ')', ',', 'Y'] => some (.indirectY, (byteOf? x y).map ([·]))
  | _ => none

end OperandField

open OperandField

namespace AddressingMode

/-- The operand bytes that a mode shows, if there are as many. -/
def shown (mode : AddressingMode) (operand : List UInt8) : Option (List UInt8) :=
  if mode.operandLength.toNat ≤ operand.length then
    some (operand.take mode.operandLength.toNat)
  else
    none

/-! ## The digits of a field -/

/-- A character that is neither a blank nor a comma, as digits and question marks are. -/
def Plain (c : Char) : Prop :=
  c ≠ ' ' ∧ c ≠ ','

instance (c : Char) : Decidable (Plain c) :=
  inferInstanceAs (Decidable (_ ∧ _))

theorem plain_of_isDigit {c : Char} (h : (digitValue 16 c).isSome) : Plain c := by
  refine ⟨?_, ?_⟩
  · rintro rfl
    exact absurd h (by decide)
  · rintro rfl
    exact absurd h (by decide)

/-- The two characters of a byte. -/
theorem exists_byte_chars (byte : UInt8) :
    ∃ x y : Char, (Hexadecimal.byte byte).toList = [x, y] ∧ byteOf? x y = some byte ∧
      Plain x ∧ Plain y := by
  have hspelled := spelled_hexadecimal 2 byte.toNat
  obtain ⟨x, y, hchars⟩ := List.length_eq_two.mp
    (Hexadecimal.length_digits (by decide) (show byte.toNat < 16 ^ 2 from byte.toNat_lt))
  rw [hchars] at hspelled
  refine ⟨x, y, String.toList_ofList.trans hchars, ?_, ?_, ?_⟩
  · unfold byteOf?
    rw [if_pos (List.all_eq_true.mpr hspelled.isDigit), hspelled.value]
    simp
  · exact plain_of_isDigit (hspelled.isDigit x (by simp))
  · exact plain_of_isDigit (hspelled.isDigit y (by simp))

theorem exists_byteField (operand : List UInt8) :
    ∃ x y : Char, (byteField operand).toList = [x, y] ∧ byteOf? x y = operand.head? ∧
      Plain x ∧ Plain y := by
  cases operand with
  | nil => exact ⟨'?', '?', rfl, by decide, by decide, by decide⟩
  | cons byte _ => exact exists_byte_chars byte

theorem exists_wordField (operand : List UInt8) :
    ∃ a b c d : Char, (wordField operand).toList = [a, b, c, d] ∧
      wordOf? a b c d = (if 2 ≤ operand.length then some (operand.take 2) else none) ∧
      ∀ x ∈ [a, b, c, d], Plain x := by
  match operand with
  | [] => exact ⟨'?', '?', '?', '?', rfl, rfl, by simp [Plain]⟩
  | [byte] => exact ⟨'?', '?', '?', '?', by simp [wordField], rfl, by simp [Plain]⟩
  | low :: high :: rest =>
    obtain ⟨a, b, hhigh, hhighValue, ha, hb⟩ := exists_byte_chars high
    obtain ⟨c, d, hlow, hlowValue, hc, hd⟩ := exists_byte_chars low
    refine ⟨a, b, c, d, ?_, ?_, by simp [ha, hb, hc, hd]⟩
    · show (Hexadecimal.byte high ++ Hexadecimal.byte low).toList = _
      rw [String.toList_append, hhigh, hlow]
      rfl
    · unfold wordOf?
      rw [hhighValue, hlowValue]
      rfl

/-! ## Fields -/

theorem shown_of_byte {mode : AddressingMode} (h : mode.operandLength = 1) (operand : List UInt8) :
    mode.shown operand = operand.head?.map ([·]) := by
  unfold shown
  rw [h]
  cases operand <;> rfl

theorem shown_of_word {mode : AddressingMode} (h : mode.operandLength = 2) (operand : List UInt8) :
    mode.shown operand = if 2 ≤ operand.length then some (operand.take 2) else none := by
  unfold shown
  rw [h]
  rfl

/-- **A field is read back**, whatever is behind the bytes that it shows. -/
theorem ofChars?_operandText (mode : AddressingMode) (operand : List UInt8) :
    ofChars? (mode.operandText operand).toList = some (mode, mode.shown operand) := by
  obtain ⟨x, y, hbyte, hvalue, -, -⟩ := exists_byteField operand
  obtain ⟨a, b, c, d, hword, hwordValue, hplain⟩ := exists_wordField operand
  have hc : c ≠ ',' := (hplain c (by simp)).2
  cases mode with
  | implied => rfl
  | accumulator => simp [operandText, ofChars?, shown, operandLength]
  | immediate | zeroPage | zeroPageX | indirectX | indirectY =>
    rw [shown_of_byte rfl, ← hvalue]
    simp only [operandText, String.toList_append, hbyte]
    rfl
  | absolute =>
    rw [shown_of_word rfl, ← hwordValue]
    simp only [operandText, String.toList_append, hword]
    exact if_neg hc
  | absoluteX | absoluteY =>
    rw [shown_of_word rfl, ← hwordValue]
    simp only [operandText, String.toList_append, hword]
    rfl

/-- **No two modes have a field in common**, and in one mode no two operands. -/
theorem operandText_inj {mode mode' : AddressingMode} {operand operand' : List UInt8}
    (h : mode.operandText operand = mode'.operandText operand') :
    mode = mode' ∧ mode.shown operand = mode'.shown operand' := by
  have hread := congrArg (fun text => ofChars? text.toList) h
  rw [ofChars?_operandText, ofChars?_operandText] at hread
  exact Prod.mk.inj (Option.some.inj hread)

/-- Fields are short, and have no blanks in them. -/
theorem operandText_chars (mode : AddressingMode) (operand : List UInt8) :
    (∀ c ∈ (mode.operandText operand).toList, c ≠ ' ') ∧
      (mode.operandText operand).toList.length ≤ 7 := by
  obtain ⟨x, y, hbyte, -, hx, hy⟩ := exists_byteField operand
  obtain ⟨a, b, c, d, hword, -, hplain⟩ := exists_wordField operand
  obtain ⟨ha, hb, hc, hd⟩ : Plain a ∧ Plain b ∧ Plain c ∧ Plain d := by simpa using hplain
  cases mode <;> simp [operandText, hbyte, hword, hx.1, hy.1, ha.1, hb.1, hc.1, hd.1]

end AddressingMode

end Mos6502

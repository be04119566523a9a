import Mos6502.Disassembly
import Mos6502.Proofs.Addressing.OperandField
import Mos6502.Proofs.Snapshot

/-!
# Lines of a trace read back

A line tells where its instruction is, the mode of the instruction with the operand bytes of the
mode, and the registers.

**Reading** (`Disassembly.ofText?`). The bytes of an instruction and its mnemonic may be of any
length and contain any characters. So the address is read at the beginning of the line, and the rest
from its end, where the columns have fixed widths.

Main result: `Disassembly.ofText?_text`.
-/

namespace Mos6502

open TextReader

namespace Registers

theorem length_text (regs : Registers) : regs.text.toList.length = 43 := by
  have hdigits (byte : UInt8) : (Hexadecimal.digits 2 byte.toNat).length = 2 :=
    Hexadecimal.length_digits (by decide) byte.toNat_lt
  have hword : (Hexadecimal.digits 4 regs.pc.toNat).length = 4 :=
    Hexadecimal.length_digits (by decide) regs.pc.toNat_lt
  have hline := congrArg List.length regs.toList_text
  simp only [String.toList_append, List.length_append, hdigits, hword, length_statusText] at hline
  exact Nat.succ.inj hline

end Registers

namespace Disassembly

/-- What a line tells. -/
structure Told where
  /-- Where the instruction is. -/
  address : UInt16
  mode : AddressingMode
  /-- The operand bytes of the mode, if none is missing. -/
  operand : Option (List UInt8)
  registers : Registers
  deriving DecidableEq

/-- What the text of a line tells. -/
def told (line : Disassembly) : Told where
  address := line.registers.pc
  mode := line.instruction.mode
  operand := line.instruction.mode.shown line.operand
  registers := line.registers

/-- Read the columns of a line. The operand field may have blanks behind it. -/
def ofColumns? (address field registers : List Char) : Option Told := do
  let (address, _) ← (numeral 16).run address
  let (mode, operand) ← OperandField.ofChars? (field.takeWhile (· ≠ ' '))
  let (registers, _) ← Registers.reader.run (registers ++ ['\n'])
  return { address := address.toUInt16, mode, operand, registers }

/-- Read a line. Its operand field has 10 characters, and the registers have 43. -/
def ofText? (text : String) : Option Told :=
  let line := text.toList
  ofColumns? (line.take 4) ((line.drop (line.length - 55)).take 10) (line.drop (line.length - 43))

/-! ## The columns of a line -/

/-- What is between the address and the operand field. -/
def middle (line : Disassembly) : List Char :=
  "  ".toList ++ (column 8 line.bytesText).toList ++ "  ".toList ++
    line.instruction.mnemonic.toList ++ " ".toList

theorem toList_text (line : Disassembly) :
    line.text.toList = Hexadecimal.digits 4 line.registers.pc.toNat ++ (line.middle ++
      ((column 10 line.operandText).toList ++ ("  ".toList ++ line.registers.text.toList))) := by
  have hdigits : (toString (Hexadecimal.word line.registers.pc)).toList =
      Hexadecimal.digits 4 line.registers.pc.toNat := String.toList_ofList
  simp only [text, middle, String.toList_append, List.append_assoc, hdigits]
  rfl

/-- A line begins with the program counter. -/
theorem word_prefix_text (line : Disassembly) :
    (Hexadecimal.word line.registers.pc).toList <+: line.text.toList := by
  rw [toList_text, show (Hexadecimal.word line.registers.pc).toList =
    Hexadecimal.digits 4 line.registers.pc.toNat from String.toList_ofList]
  exact List.prefix_append ..

/-- A line ends with the registers. -/
theorem registers_suffix_text (line : Disassembly) :
    line.registers.text.toList <:+ line.text.toList := by
  rw [toList_text, ← List.append_assoc, ← List.append_assoc, ← List.append_assoc]
  exact List.suffix_append ..

/-- The operand field is padded with blanks. -/
theorem toList_column (line : Disassembly) :
    ∃ blanks : List Char, (∀ c ∈ blanks, c = ' ') ∧
      (column 10 line.operandText).toList = line.operandText.toList ++ blanks ∧
      (column 10 line.operandText).toList.length = 10 := by
  obtain ⟨-, hlength⟩ := line.instruction.mode.operandText_chars line.operand
  refine ⟨List.replicate (10 - line.operandText.toList.length) ' ',
    fun c => List.eq_of_mem_replicate, String.toList_ofList, ?_⟩
  unfold column
  rw [String.toList_ofList, List.length_rightpad]
  exact Nat.max_eq_left (Nat.le_trans hlength (by decide))

/-- The characters in front of the blanks are those of the operand field. -/
theorem takeWhile_column (line : Disassembly) :
    (column 10 line.operandText).toList.takeWhile (· ≠ ' ') = line.operandText.toList := by
  obtain ⟨hplain, -⟩ := line.instruction.mode.operandText_chars line.operand
  obtain ⟨blanks, hblanks, hcolumn, -⟩ := line.toList_column
  have hstop : blanks.takeWhile (· ≠ ' ') = [] := by
    cases blanks with
    | nil => rfl
    | cons c _ => simp [hblanks c List.mem_cons_self]
  have hgo : ∀ c ∈ line.operandText.toList, decide (c ≠ ' ') = true :=
    fun c hc => decide_eq_true (hplain c hc)
  rw [hcolumn, List.takeWhile_append_of_pos hgo, hstop, List.append_nil]

/-! ## Reading a line -/

/-- What is so many characters before the end of a text. -/
theorem drop_length_sub {front behind : List Char} {count : Nat} (h : behind.length = count) :
    (front ++ behind).drop ((front ++ behind).length - count) = behind := by
  rw [List.length_append, h, Nat.add_sub_cancel]
  exact List.drop_left

/-- **Lines are read back** from their texts, whatever the mnemonic is and however many bytes the
instruction is said to have. -/
theorem ofText?_text (line : Disassembly) : ofText? line.text = some line.told := by
  have haddress : (Hexadecimal.digits 4 line.registers.pc.toNat).length = 4 :=
    Hexadecimal.length_digits (by decide) line.registers.pc.toNat_lt
  obtain ⟨_, -, -, hcolumn⟩ := line.toList_column
  have hregisters := line.registers.length_text
  have htake : line.text.toList.take 4 = Hexadecimal.digits 4 line.registers.pc.toNat := by
    rw [toList_text]
    exact List.take_left' haddress
  have hfield : (line.text.toList.drop (line.text.toList.length - 55)).take 10 =
      (column 10 line.operandText).toList := by
    rw [toList_text, ← List.append_assoc, drop_length_sub (by simp [hcolumn, hregisters])]
    exact List.take_left' hcolumn
  have hbehind : line.text.toList.drop (line.text.toList.length - 43) =
      line.registers.text.toList := by
    rw [toList_text, ← List.append_assoc, ← List.append_assoc, ← List.append_assoc]
    exact drop_length_sub hregisters
  have hnumeral : (numeral 16).run (Hexadecimal.digits 4 line.registers.pc.toNat) =
      some (line.registers.pc.toNat, []) := by
    have hread := run_numeral (spelled_hexadecimal 4 line.registers.pc.toNat) (stops_nil 16)
    rwa [List.append_nil] at hread
  have hread : Registers.reader.run (line.registers.text.toList ++ ['\n']) =
      some (line.registers, []) := by
    have hline := line.registers.run_reader []
    rwa [List.append_nil, String.toList_append] at hline
  have hoperand : OperandField.ofChars? line.operandText.toList =
      some (line.told.mode, line.told.operand) :=
    line.instruction.mode.ofChars?_operandText line.operand
  show ofColumns? (line.text.toList.take 4) ((line.text.toList.drop _).take 10) _ = _
  rw [htake, hfield, hbehind]
  unfold ofColumns?
  rw [hnumeral, takeWhile_column, hoperand, hread]
  have hpc : line.registers.pc.toNat.toUInt16 = line.registers.pc := UInt16.ofNat_toNat
  show some (⟨line.registers.pc.toNat.toUInt16, _, _, _⟩ : Told) = _
  rw [hpc]
  rfl

end Disassembly

end Mos6502

import Mos6502.Proofs.HexDump
import Mos6502.Snapshot

/-!
# Snapshots read back

The text of a snapshot is lossless: registers, counters and every byte of the memory can be read
back from it, however long the memory is.

**Reading** (`Snapshot.ofText?`). The registers are in the first line; the letters behind them say
nothing that `P` does not. The counters and the number of bytes are in the second line, and with
this number the bytes are restored from the lines of the dump.

Main result: `text_lossless`.
-/

namespace Mos6502

open TextReader

/-! ## The line of registers -/

namespace Registers

theorem length_statusText (status : UInt8) : (statusText status).toList.length = 8 := by
  simp [statusText, statusLetters]

theorem toList_text (regs : Registers) :
    (regs.text ++ "\n").toList =
      "PC=".toList ++ (Hexadecimal.digits 4 regs.pc.toNat ++
        (" A=".toList ++ (Hexadecimal.digits 2 regs.a.toNat ++
        (" X=".toList ++ (Hexadecimal.digits 2 regs.x.toNat ++
        (" Y=".toList ++ (Hexadecimal.digits 2 regs.y.toNat ++
        (" S=".toList ++ (Hexadecimal.digits 2 regs.s.toNat ++
        (" P=".toList ++ (Hexadecimal.digits 2 regs.p.toNat ++
        (" [".toList ++ ((statusText regs.p).toList ++ "]\n".toList))))))))))))) := by
  have hdigits (width n : Nat) :
      (toString (Hexadecimal.text width n)).toList = Hexadecimal.digits width n :=
    String.toList_ofList
  simp only [text, Hexadecimal.word, Hexadecimal.byte, String.toList_append, List.append_assoc,
    hdigits]
  rfl

/-- Read registers with the end of their line. -/
def reader : TextReader Registers := do
  let pc ← field 16 "PC="
  let a ← field 16 " A="
  let x ← field 16 " X="
  let y ← field 16 " Y="
  let s ← field 16 " S="
  let p ← field 16 " P="
  literal " ["
  skip 8
  literal "]\n"
  return {
    a := a.toUInt8, y := y.toUInt8, x := x.toUInt8, s := s.toUInt8, p := p.toUInt8
    pc := pc.toUInt16 }

theorem run_reader (regs : Registers) (rest : List Char) :
    reader.run ((regs.text ++ "\n").toList ++ rest) = some (regs, rest) := by
  rw [toList_text]
  simp only [List.append_assoc]
  unfold reader
  rw [run_bind_of_eq_some (run_field "PC=" (spelled_hexadecimal 4 _) (stops_append " A=" rfl _)),
    run_bind_of_eq_some (run_field " A=" (spelled_hexadecimal 2 _) (stops_append " X=" rfl _)),
    run_bind_of_eq_some (run_field " X=" (spelled_hexadecimal 2 _) (stops_append " Y=" rfl _)),
    run_bind_of_eq_some (run_field " Y=" (spelled_hexadecimal 2 _) (stops_append " S=" rfl _)),
    run_bind_of_eq_some (run_field " S=" (spelled_hexadecimal 2 _) (stops_append " P=" rfl _)),
    run_bind_of_eq_some (run_field " P=" (spelled_hexadecimal 2 _) (stops_append " [" rfl _)),
    run_bind_of_eq_some (run_literal " [" _),
    run_bind_of_eq_some (run_skip (length_statusText regs.p) _),
    run_bind_of_eq_some (run_literal "]\n" rest)]
  simp

end Registers

namespace Snapshot

/-! ## The line of counters -/

theorem toList_countersText (snapshot : Snapshot) :
    (snapshot.countersText ++ "\n").toList =
      "cycles=".toList ++ (Nat.toDigits 10 snapshot.cycles ++
        (" instructions=".toList ++ (Nat.toDigits 10 snapshot.instructions ++
        (" memory=".toList ++ (Nat.toDigits 10 snapshot.memory.length ++
          " bytes\n".toList))))) := by
  simp only [countersText, Nat.toString_eq_repr, String.toList_append, Nat.toList_repr,
    List.append_assoc]
  rfl

/-- The number of cycles, the number of instructions and the number of bytes. -/
def counters : TextReader (Nat × Nat × Nat) := do
  let cycles ← field 10 "cycles="
  let instructions ← field 10 " instructions="
  let size ← field 10 " memory="
  literal " bytes\n"
  return (cycles, instructions, size)

theorem run_counters (snapshot : Snapshot) (rest : List Char) :
    counters.run ((snapshot.countersText ++ "\n").toList ++ rest) =
      some ((snapshot.cycles, snapshot.instructions, snapshot.memory.length), rest) := by
  rw [toList_countersText]
  simp only [List.append_assoc]
  unfold counters
  rw [run_bind_of_eq_some (run_field "cycles=" (spelled_decimal _)
      (stops_append " instructions=" rfl _)),
    run_bind_of_eq_some (run_field " instructions=" (spelled_decimal _)
      (stops_append " memory=" rfl _)),
    run_bind_of_eq_some (run_field " memory=" (spelled_decimal _) (stops_append " bytes\n" rfl _)),
    run_bind_of_eq_some (run_literal " bytes\n" rest)]
  rfl

/-! ## Snapshots -/

/-- Read a snapshot. -/
def reader : TextReader Snapshot := do
  let registers ← Registers.reader
  let (cycles, instructions, size) ← counters
  let lines ← many HexDump.line
  return { registers, cycles, instructions, memory := HexDump.restore size lines }

/-- The snapshot that a whole text tells of. -/
def ofText? (text : String) : Option Snapshot :=
  match reader.run text.toList with
  | some (snapshot, []) => some snapshot
  | _ => none

theorem toList_text (snapshot : Snapshot) :
    snapshot.text.toList = (snapshot.registers.text ++ "\n").toList ++
      ((snapshot.countersText ++ "\n").toList ++
        (HexDump.lines (HexDump.rows snapshot.memory)).flatMap fun l =>
          (l.text ++ "\n").toList) := by
  simp only [text, lines, List.map_cons, List.map_map, String.toList_join, List.flatMap_cons,
    List.flatMap_map]
  rfl

theorem run_reader (snapshot : Snapshot) :
    reader.run snapshot.text.toList = some (snapshot, []) := by
  have hline (l : HexDump.Line) (more : List Char) (_ : True) :
      HexDump.line.run ((l.text ++ "\n").toList ++ more) = some (l, more) :=
    HexDump.run_line l more
  have hlines := run_many hline (fun _ _ => trivial) (by simp)
    (HexDump.lines (HexDump.rows snapshot.memory)) trivial HexDump.run_line_nil
  rw [List.append_nil] at hlines
  unfold reader
  rw [toList_text, run_bind_of_eq_some (snapshot.registers.run_reader _),
    run_bind_of_eq_some (snapshot.run_counters _), run_bind_of_eq_some hlines,
    HexDump.restore_lines]
  rfl

/-- **Snapshots are read back** from their texts, so no two of them have the same text. -/
theorem text_lossless :
    (∀ snapshot : Snapshot, ofText? snapshot.text = some snapshot) ∧
      Function.Injective Snapshot.text := by
  have hread (snapshot : Snapshot) : ofText? snapshot.text = some snapshot := by
    rw [ofText?, run_reader]
  refine ⟨hread, fun snapshot other h => ?_⟩
  have hsame := congrArg ofText? h
  rw [hread, hread] at hsame
  exact Option.some.inj hsame

end Snapshot

end Mos6502

import Mos6502.HexDump
import Mos6502.Proofs.Text.Reader

/-!
# Dumps are lossless

The bytes can be recovered from the lines of their dump, and the lines from their texts.

**Rows that were left out** (`restore`). The lines of a dump are gone through from above. Between
two rows that are printed, and between the last one and the end of the bytes, as many copies of the
row above are put in as the addresses leave room for. The stars are not even looked at: a row is
left out only if it is the same as the last one printed, and the number of bytes says how many are
missing at the end. A short row at the end is never taken for the full row above.

**Main results** (`restore_lines`, `run_line`). The lines of any bytes are restored to these bytes,
and the text of any line is read back.
-/

namespace Mos6502.HexDump

/-! ## Rows that were left out -/

/-- The number of rows that begin from the address `next` on and before the address `upTo`. -/
def rowsBetween (next upTo : Nat) : Nat :=
  (upTo - next + (rowLength - 1)) / rowLength

theorem length_rows (bytes : List UInt8) : (rows bytes).length = rowsBetween 0 bytes.length := by
  fun_induction rows bytes with
  | case1 => rfl
  | case2 bytes hne ih =>
    have hpos := List.length_pos_iff.mpr hne
    rw [List.length_cons, ih, List.length_drop]
    simp only [rowsBetween, rowLength]
    omega

/-- Below `k` rows and another one there is one row less than from that one on. -/
theorem rowsBetween_below {next upTo k n : Nat} (h : rowsBetween next upTo = k + (n + 1)) :
    rowsBetween (next + k * rowLength + rowLength) upTo = n := by
  simp only [rowsBetween, rowLength] at h ⊢
  omega

theorem rowsBetween_add_mul (next k : Nat) : rowsBetween next (next + k * rowLength) = k := by
  simp only [rowsBetween, rowLength]
  omega

/-- The rows from the address `next` on, given the row above, the number of all bytes and the
lines from there on. -/
def expand (size : Nat) (above : List UInt8) (next : Nat) : List Line → List (List UInt8)
  | [] => List.replicate (rowsBetween next size) above
  | .repeated :: rest => expand size above next rest
  | .row address bytes :: rest =>
    List.replicate (rowsBetween next address) above ++
      bytes :: expand size bytes (address + rowLength) rest

/-- The bytes of a dump, given their number and its lines. -/
def restore (size : Nat) (list : List Line) : List UInt8 :=
  (expand size [] 0 list).flatten

/-- The rows below a printed row are recovered, `pending` of which were left out so far. -/
theorem expand_linesBelow (size : Nat) (list : List (List UInt8)) :
    ∀ (above : List UInt8) (starred : Bool) (next pending : Nat),
      rowsBetween next size = pending + list.length →
        expand size above next (linesBelow above starred (next + pending * rowLength) list) =
          List.replicate pending above ++ list := by
  induction list with
  | nil =>
    intro above starred next pending hsize
    rw [linesBelow, expand, hsize, List.length_nil, Nat.add_zero, List.append_nil]
  | cons bytes rest ih =>
    intro above starred next pending hsize
    rw [List.length_cons] at hsize
    have haddress : next + pending * rowLength + rowLength = next + (pending + 1) * rowLength := by
      rw [Nat.succ_mul, Nat.add_assoc]
    by_cases hsame : bytes = above
    · -- One more row is left out, whether or not a star is written for it.
      have hrest := ih above true next (pending + 1) (by omega)
      rw [← haddress] at hrest
      have hline : expand size above next
          (linesBelow above starred (next + pending * rowLength) (bytes :: rest)) =
            List.replicate (pending + 1) above ++ rest := by
        cases starred <;> simpa [linesBelow, hsame, expand] using hrest
      rw [hline, hsame, List.replicate_succ', List.append_assoc]
      rfl
    · -- The row is printed, and its address tells how many were left out before it.
      have hbelow := rowsBetween_below hsize
      have hrest := ih bytes false (next + pending * rowLength + rowLength) 0
        (by rw [hbelow, Nat.zero_add])
      rw [Nat.zero_mul, Nat.add_zero] at hrest
      rw [linesBelow, if_neg hsame, expand, rowsBetween_add_mul, hrest]
      rfl

theorem expand_lines {size : Nat} (list : List (List UInt8))
    (hsize : rowsBetween 0 size = list.length) : expand size [] 0 (lines list) = list := by
  cases list with
  | nil =>
    rw [lines, expand, hsize]
    rfl
  | cons first rest =>
    rw [List.length_cons, ← Nat.zero_add (rest.length + 1)] at hsize
    have hbelow := rowsBetween_below hsize
    have hrest := expand_linesBelow size rest first false rowLength 0
    rw [Nat.zero_mul, Nat.add_zero, Nat.zero_add] at hbelow
    rw [Nat.zero_mul, Nat.add_zero, Nat.zero_add] at hrest
    rw [lines, expand, Nat.zero_add, hrest hbelow]
    rfl

/-- **Bytes are restored** from the lines of their dump. -/
theorem restore_lines (bytes : List UInt8) :
    restore bytes.length (lines (rows bytes)) = bytes := by
  rw [restore, expand_lines _ (length_rows bytes).symm, flatten_rows]

/-- A star that reaches up to a short row, which is printed though it begins like the row above. -/
example : lines (rows (List.replicate 50 7)) =
    [.row 0 (List.replicate 16 7), .repeated, .row 48 [7, 7]] := by
  cbv

/-! ## Lines read back -/

open TextReader

/-- The characters of a byte in a row. -/
def byteText (b : UInt8) : List Char :=
  " ".toList ++ Hexadecimal.digits 2 b.toNat

theorem toList_text_row (address : Nat) (bytes : List UInt8) :
    (Line.row address bytes).text.toList =
      Hexadecimal.digits 4 address ++ (":".toList ++ bytes.flatMap byteText) := by
  simp only [Line.text, Hexadecimal.text, Hexadecimal.byte, String.toList_append,
    String.toList_ofList, String.toList_join, List.flatMap_map, List.append_assoc]
  rfl

/-- Read a byte in a row. -/
def byte : TextReader UInt8 := do
  let value ← field 16 " "
  return value.toUInt8

theorem run_byte (b : UInt8) (more : List Char) (h : Stops 16 more) :
    byte.run (byteText b ++ more) = some (b, more) := by
  unfold byte byteText
  rw [List.append_assoc, run_bind_of_eq_some (run_field " " (spelled_hexadecimal 2 _) h)]
  simp

theorem stops_byteText (b : UInt8) (more : List Char) : Stops 16 (byteText b ++ more) := by
  unfold byteText
  rw [List.append_assoc]
  exact stops_append " " rfl _

/-- Read a row with its end. -/
def row : TextReader Line := do
  let address ← numeral 16
  literal ":"
  let bytes ← many byte
  literal "\n"
  return .row address bytes

theorem run_row (address : Nat) (bytes : List UInt8) (rest : List Char) :
    row.run ((Line.row address bytes).text.toList ++ ("\n".toList ++ rest)) =
      some (.row address bytes, rest) := by
  have hcolon : Stops 16 (":".toList ++ (bytes.flatMap byteText ++ ("\n".toList ++ rest))) :=
    stops_append ":" rfl _
  have hend : Stops 16 ("\n".toList ++ rest) := stops_append "\n" rfl rest
  have hbytes := run_many run_byte stops_byteText (by simp [byteText]) bytes hend rfl
  unfold row
  rw [toList_text_row, List.append_assoc, List.append_assoc,
    run_bind_of_eq_some (run_numeral (spelled_hexadecimal 4 address) hcolon),
    run_bind_of_eq_some (run_literal ":" _), run_bind_of_eq_some hbytes,
    run_bind_of_eq_some (run_literal "\n" rest)]
  rfl

/-- Read a line with its end. -/
def line : TextReader Line := fun text =>
  match row.run text with
  | some p => some p
  | none => ((literal "*\n").run text).map fun p => (.repeated, p.2)

theorem run_line_of_some {text : List Char} {p : Line × List Char} (h : row.run text = some p) :
    line.run text = some p := by
  simp only [StateT.run] at h
  simp only [line, StateT.run, h]

theorem run_line_of_none {text : List Char} (h : row.run text = none) :
    line.run text = ((literal "*\n").run text).map fun p => (.repeated, p.2) := by
  simp only [StateT.run] at h
  simp only [line, StateT.run, h]

theorem run_line_nil : line.run [] = none := by
  rw [run_line_of_none (run_bind_of_eq_none (run_numeral_of_stops (stops_nil 16)))]
  rfl

/-- **Lines are read back** from their texts. -/
theorem run_line (l : Line) (rest : List Char) :
    line.run ((l.text ++ "\n").toList ++ rest) = some (l, rest) := by
  rw [String.toList_append, List.append_assoc]
  cases l with
  | row address bytes => exact run_line_of_some (run_row address bytes rest)
  | repeated =>
    have hstar : Stops 16 ("*".toList ++ ("\n".toList ++ rest)) := stops_append "*" rfl _
    show line.run ("*".toList ++ ("\n".toList ++ rest)) = _
    rw [run_line_of_none (run_bind_of_eq_none (run_numeral_of_stops hstar))]
    show ((literal "*\n").run ("*\n".toList ++ rest)).map _ = _
    rw [run_literal]
    rfl

end Mos6502.HexDump

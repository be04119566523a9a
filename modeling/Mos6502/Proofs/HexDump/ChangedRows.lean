import Mathlib.Data.List.Forall2
import Mathlib.Order.Bounds.Defs
import Mos6502.Proofs.Registers.Text

/-!
# The rows that a dump prints

The bytes are cut into rows of sixteen, and a row is known by its number (`rowAt`). It is printed if
it is the first or differs from the row above (`Printed`). The first of the rows left out below a
printed one has a star, for all of them (`Starred`).

**The loop** (`linesBelow_eq`). The loop knows the row that was printed last and whether a star was
written since. The row above has the same bytes as that one, whether or not it was printed itself,
and a star was written since if and only if it was not. With this invariant every row gets the line
that its number gives it (`lineOf`).

**What follows.** Two stars never follow each other, since the row of a star comes directly below a
printed one. A short row differs from the full row above it. What was left out is found in the
nearest printed row above.

Main result: `Snapshot.text_prints_changed_rows`.
-/

namespace Mos6502

namespace HexDump

/-! ## Rows by their numbers -/

/-- The number of rows, the last of which can be short. -/
def rowCount (bytes : List UInt8) : Nat :=
  (bytes.length + 15) / 16

/-- A row: the bytes from the address `16 * i` on, at most sixteen. -/
def rowAt (bytes : List UInt8) (i : Nat) : List UInt8 :=
  (bytes.drop (16 * i)).take 16

theorem length_rowAt (bytes : List UInt8) (i : Nat) :
    (rowAt bytes i).length = min 16 (bytes.length - 16 * i) := by
  simp [rowAt]

theorem rows_eq (bytes : List UInt8) :
    rows bytes = (List.range (rowCount bytes)).map (rowAt bytes) := by
  fun_induction rows bytes with
  | case1 => rfl
  | case2 bytes hne ih =>
    have hpos := List.length_pos_iff.mpr hne
    have hcount : rowCount bytes = rowCount (bytes.drop rowLength) + 1 := by
      simp only [rowCount, rowLength, List.length_drop]
      omega
    have hbelow : rowAt (bytes.drop rowLength) = fun i => rowAt bytes (i + 1) := by
      funext i
      rw [rowAt, rowAt, List.drop_drop, rowLength, Nat.mul_succ, Nat.add_comm 16]
    rw [ih, hcount, hbelow, List.range_succ_eq_map, List.map_cons, List.map_map]
    rfl

/-! ## The line of a row -/

/-- A row is printed if it is the first or differs from the row above. -/
def Printed (row : Nat → List UInt8) (i : Nat) : Prop :=
  i = 0 ∨ row i ≠ row (i - 1)

/-- A row has a star if it is the same as the row above, and that one is the first or differs from
the row above it. -/
def Starred (row : Nat → List UInt8) (i : Nat) : Prop :=
  i ≠ 0 ∧ row i = row (i - 1) ∧ (i = 1 ∨ row (i - 1) ≠ row (i - 2))

instance (row : Nat → List UInt8) (i : Nat) : Decidable (Printed row i) :=
  inferInstanceAs (Decidable (_ ∨ _))

instance (row : Nat → List UInt8) (i : Nat) : Decidable (Starred row i) :=
  inferInstanceAs (Decidable (_ ∧ _))

/-- The line of a row, if it has one. -/
def lineOf (row : Nat → List UInt8) (i : Nat) : Option Line :=
  if Printed row i then some (.row (16 * i) (row i))
  else if Starred row i then some .repeated
  else none

section Lines

variable (row : Nat → List UInt8) {i k : Nat}

theorem printed_succ_iff : Printed row (k + 1) ↔ row (k + 1) ≠ row k := by
  simp [Printed]

theorem starred_succ_iff : Starred row (k + 1) ↔ ¬Printed row (k + 1) ∧ Printed row k := by
  simp [Starred, Printed]

variable {row}

theorem lineOf_of_printed (h : Printed row i) : lineOf row i = some (.row (16 * i) (row i)) :=
  if_pos h

theorem lineOf_succ_of_starred (h : ¬Printed row (k + 1)) (hk : Printed row k) :
    lineOf row (k + 1) = some .repeated := by
  rw [lineOf, if_neg h, if_pos ((starred_succ_iff row).mpr ⟨h, hk⟩)]

theorem lineOf_succ_of_omitted (h : ¬Printed row (k + 1)) (hk : ¬Printed row k) :
    lineOf row (k + 1) = none := by
  rw [lineOf, if_neg h, if_neg fun hstar => hk ((starred_succ_iff row).mp hstar).2]

/-! ## The loop -/

/-- **Every row gets its line** below the row `k`. A star was written since the last printed row if
and only if the row `k` was not printed. -/
theorem linesBelow_eq (n : Nat) :
    ∀ (k : Nat) (starred : Bool), (starred = true ↔ ¬Printed row k) →
      linesBelow (row k) starred (16 * (k + 1)) ((List.range' (k + 1) n).map row) =
        (List.range' (k + 1) n).filterMap (lineOf row) := by
  induction n with
  | zero => exact fun _ _ _ => rfl
  | succ n ih =>
    intro k starred hstarred
    rw [List.range'_succ, List.map_cons, linesBelow]
    by_cases hsame : row (k + 1) = row k
    · -- The row is left out, so below it the row above is still that of the last printed one.
      have hnot : ¬Printed row (k + 1) := fun h => (printed_succ_iff row).mp h hsame
      have hrest := ih (k + 1) true (by simp [hnot])
      rw [hsame] at hrest
      rw [if_pos hsame]
      cases starred with
      | true =>
        rw [List.filterMap_cons_none (lineOf_succ_of_omitted hnot (hstarred.mp rfl)), ← hrest]
        rfl
      | false =>
        have hk : Printed row k := not_not.mp fun h => Bool.false_ne_true (hstarred.mpr h)
        rw [List.filterMap_cons_some (lineOf_succ_of_starred hnot hk), ← hrest]
        rfl
    · have hprinted : Printed row (k + 1) := (printed_succ_iff row).mpr hsame
      have hrest := ih (k + 1) false (by simp [hprinted])
      rw [if_neg hsame, List.filterMap_cons_some (lineOf_of_printed hprinted), ← hrest]
      rfl

theorem lines_map_range (row : Nat → List UInt8) (n : Nat) :
    lines ((List.range n).map row) = (List.range n).filterMap (lineOf row) := by
  cases n with
  | zero => rfl
  | succ n =>
    have hfirst : Printed row 0 := .inl rfl
    rw [List.range_eq_range', List.range'_succ, List.map_cons, lines,
      List.filterMap_cons_some (lineOf_of_printed hfirst),
      ← linesBelow_eq n 0 false (by simp [hfirst])]
    rfl

/-! ## Stars -/

/-- Below a line that is a star if and only if the row `k` was not printed, no star follows a
star. -/
theorem isChain_lines_below (n : Nat) :
    ∀ (k : Nat) (last : Line), (last = .repeated ↔ ¬Printed row k) →
      List.IsChain (fun l l' => l ≠ .repeated ∨ l' ≠ .repeated)
        (last :: (List.range' (k + 1) n).filterMap (lineOf row)) := by
  induction n with
  | zero => exact fun _ _ _ => .singleton _
  | succ n ih =>
    intro k last hlast
    rw [List.range'_succ]
    by_cases hprinted : Printed row (k + 1)
    · rw [List.filterMap_cons_some (lineOf_of_printed hprinted)]
      exact .cons_cons (.inr nofun) (ih (k + 1) _ (by simp [hprinted]))
    · by_cases hk : Printed row k
      · rw [List.filterMap_cons_some (lineOf_succ_of_starred hprinted hk)]
        exact .cons_cons (.inl fun h => hlast.mp h hk) (ih (k + 1) _ (by simp [hprinted]))
      · rw [List.filterMap_cons_none (lineOf_succ_of_omitted hprinted hk)]
        exact ih (k + 1) last (by simp [hprinted, hlast, hk])

/-! ## Printed rows -/

theorem row_mem_filterMap_iff {n address : Nat} {bytes : List UInt8} :
    .row address bytes ∈ (List.range n).filterMap (lineOf row) ↔
      ∃ j < n, Printed row j ∧ address = 16 * j ∧ bytes = row j := by
  simp only [List.mem_filterMap, List.mem_range]
  refine exists_congr fun j => and_congr_right fun _ => ?_
  by_cases hprinted : Printed row j
  · simp [lineOf, hprinted, eq_comm]
  · by_cases hstarred : Starred row j <;> simp [lineOf, hprinted, hstarred]

/-- **A row that was left out** is the same as the nearest printed row above. -/
theorem exists_nearest_printed (row : Nat → List UInt8) (i : Nat) :
    ∃ j, IsGreatest {j | j ≤ i ∧ Printed row j} j ∧ row j = row i := by
  induction i with
  | zero => exact ⟨0, ⟨⟨Nat.le_refl 0, .inl rfl⟩, fun _ h => h.1⟩, rfl⟩
  | succ i ih =>
    by_cases hprinted : Printed row (i + 1)
    · exact ⟨i + 1, ⟨⟨Nat.le_refl _, hprinted⟩, fun _ h => h.1⟩, rfl⟩
    · obtain ⟨j, ⟨⟨hle, hj⟩, hgreatest⟩, hsame⟩ := ih
      refine ⟨j, ⟨⟨Nat.le_succ_of_le hle, hj⟩, ?_⟩, ?_⟩
      · rintro j' ⟨hle', hj'⟩
        have hne : j' ≠ i + 1 := fun h => hprinted (h ▸ hj')
        exact hgreatest ⟨Nat.lt_succ_iff.mp (Nat.lt_of_le_of_ne hle' hne), hj'⟩
      · rw [hsame]
        exact (not_not.mp (mt (printed_succ_iff row).mpr hprinted)).symm

end Lines

/-- A short row at the end is printed, since the row above is full. -/
theorem printed_of_short {bytes : List UInt8} (h : bytes.length % 16 ≠ 0) :
    Printed (rowAt bytes) (bytes.length / 16) := by
  by_cases hzero : bytes.length / 16 = 0
  · exact .inl hzero
  · refine .inr fun hsame => ?_
    have hlength := congrArg List.length hsame
    rw [length_rowAt, length_rowAt] at hlength
    exact h (by omega)

/-! ## The lines of a dump -/

/-- The printed lines are those of the rows of `bytes`, in order, and what follows from this. -/
structure PrintsChangedRows (bytes : List UInt8) (printed : List Line) : Prop where
  lines : printed = (List.range (rowCount bytes)).filterMap (lineOf (rowAt bytes))
  /-- A star never comes first. -/
  head : printed.head? ≠ some .repeated
  /-- No two stars are neighbours. -/
  separated : printed.IsChain fun l l' => l ≠ .repeated ∨ l' ≠ .repeated
  /-- A short row at the end is the last line. -/
  short : bytes.length % 16 ≠ 0 → printed.getLast? =
    some (.row (16 * (bytes.length / 16)) (bytes.drop (16 * (bytes.length / 16))))
  /-- Every row has the bytes of the nearest one at or above it that has a line. -/
  nearest : ∀ i < rowCount bytes, ∃ j,
    IsGreatest {j | j ≤ i ∧ ∃ above, .row (16 * j) above ∈ printed} j ∧
      .row (16 * j) (rowAt bytes i) ∈ printed

/-- **A dump prints the rows that have changed.** -/
theorem printsChangedRows_lines (bytes : List UInt8) :
    PrintsChangedRows bytes (lines (rows bytes)) := by
  rw [rows_eq, lines_map_range]
  refine ⟨rfl, ?_, ?_, fun hshort => ?_, fun i hi => ?_⟩
  · cases rowCount bytes with
    | zero => exact nofun
    | succ n =>
      rw [List.range_eq_range', List.range'_succ,
        List.filterMap_cons_some (lineOf_of_printed (.inl rfl))]
      exact nofun
  · cases rowCount bytes with
    | zero => exact .nil
    | succ n =>
      have hfirst : Printed (rowAt bytes) 0 := .inl rfl
      rw [List.range_eq_range', List.range'_succ,
        List.filterMap_cons_some (lineOf_of_printed hfirst)]
      exact isChain_lines_below n 0 _ (by simp [hfirst])
  · have hcount : rowCount bytes = bytes.length / 16 + 1 := by
      rw [rowCount]
      omega
    have hall : rowAt bytes (bytes.length / 16) = bytes.drop (16 * (bytes.length / 16)) :=
      List.take_of_length_le (by rw [List.length_drop]; omega)
    rw [hcount, List.range_succ, List.filterMap_append,
      List.filterMap_cons_some (lineOf_of_printed (printed_of_short hshort)), hall,
      List.filterMap_nil, List.getLast?_concat]
  · obtain ⟨j, ⟨⟨hle, hprinted⟩, hgreatest⟩, hsame⟩ := exists_nearest_printed (rowAt bytes) i
    have hmem : .row (16 * j) (rowAt bytes i) ∈
        (List.range (rowCount bytes)).filterMap (lineOf (rowAt bytes)) :=
      row_mem_filterMap_iff.mpr ⟨j, Nat.lt_of_le_of_lt hle hi, hprinted, rfl, hsame.symm⟩
    refine ⟨j, ⟨⟨hle, _, hmem⟩, ?_⟩, hmem⟩
    rintro j' ⟨hle', above, hmem'⟩
    obtain ⟨j'', -, hprinted', haddress, -⟩ := row_mem_filterMap_iff.mp hmem'
    obtain rfl : j' = j'' := by omega
    exact hgreatest ⟨hle', hprinted'⟩

/-! ## The text of a line -/

/-- A text shows an address with at least four digits, and behind it bytes with two each. -/
def ShowsRow (text : List Char) (address : Nat) (bytes : List UInt8) : Prop :=
  ∃ (digits : List Char) (fields : List (List Char)),
    text = digits ++ ':' :: fields.flatMap (' ' :: ·) ∧
      Spelled 16 digits address ∧ 4 ≤ digits.length ∧
      List.Forall₂ (fun field b => Spelled 16 field b.toNat ∧ field.length = 2) fields bytes

theorem showsRow_text (address : Nat) (bytes : List UInt8) :
    ShowsRow (Line.row address bytes).text.toList address bytes := by
  refine ⟨Hexadecimal.digits 4 address, bytes.map fun b => Hexadecimal.digits 2 b.toNat, ?_,
    spelled_hexadecimal 4 address, ?_, ?_⟩
  · rw [toList_text_row, List.flatMap_map]
    rfl
  · rw [Hexadecimal.digits, List.length_leftpad]
    exact Nat.le_max_left _ _
  · rw [List.forall₂_map_left_iff]
    exact List.forall₂_same.mpr fun b _ =>
      ⟨spelled_hexadecimal 2 b.toNat, Hexadecimal.length_digits (by decide) b.toNat_lt⟩

theorem Line.newline_not_mem_text (l : Line) : '\n' ∉ l.text.toList := by
  cases l with
  | row address bytes =>
    have hdigits (width n : Nat) : '\n' ∉ Hexadecimal.digits width n :=
      (spelled_hexadecimal width n).not_mem (by decide)
    rw [toList_text_row]
    simp [hdigits, byteText]
  | repeated => decide

end HexDump

/-! ## The text of a snapshot -/

namespace Snapshot

open HexDump

theorem newline_not_mem_countersText (snapshot : Snapshot) :
    '\n' ∉ snapshot.countersText.toList := by
  have hdigits (n : Nat) : '\n' ∉ Nat.toDigits 10 n := (spelled_decimal n).not_mem (by decide)
  simp only [countersText, Nat.toString_eq_repr, String.toList_append, Nat.toList_repr,
    List.mem_append, hdigits]
  decide

/-- No line has an end within. -/
theorem newline_not_mem_of_mem_lines {snapshot : Snapshot} {line : String}
    (h : line ∈ snapshot.lines) : '\n' ∉ line.toList := by
  rw [lines, List.mem_cons, List.mem_cons, List.mem_map] at h
  obtain rfl | rfl | ⟨l, -, rfl⟩ := h
  · exact snapshot.registers.newline_not_mem_text
  · exact snapshot.newline_not_mem_countersText
  · exact l.newline_not_mem_text

/-- Lines that have no end within are the pieces between the ends. -/
theorem splitOn_flatMap {lines : List String} (h : ∀ line ∈ lines, '\n' ∉ line.toList) :
    (lines.flatMap fun line => (line ++ "\n").toList).splitOn '\n' =
      lines.map String.toList ++ [[]] := by
  induction lines with
  | nil => rfl
  | cons line rest ih =>
    obtain ⟨hline, hrest⟩ := List.forall_mem_cons.mp h
    have hnone : ∀ c ∈ line.toList, (c == '\n') = false := fun c hc =>
      beq_eq_false_iff_ne.mpr fun hend => hline (hend ▸ hc)
    have hsplit := List.splitOnP_append_cons_of_forall_mem hnone '\n' (beq_self_eq_true _)
      (rest.flatMap fun line => (line ++ "\n").toList)
    rw [← List.splitOn_eq_splitOnP, ← List.splitOn_eq_splitOnP, ih hrest] at hsplit
    rw [List.flatMap_cons, String.toList_append, List.append_assoc]
    exact hsplit

theorem splitOn_text (snapshot : Snapshot) :
    snapshot.text.toList.splitOn '\n' = snapshot.lines.map String.toList ++ [[]] := by
  rw [text, String.toList_join, List.flatMap_map]
  exact splitOn_flatMap fun _ => newline_not_mem_of_mem_lines

/-- **The dump in the text of a snapshot** has a line for each row that has changed. -/
theorem text_prints_changed_rows (snapshot : Snapshot) :
    ∃ printed : List Line,
      snapshot.text.toList.splitOn '\n' = snapshot.registers.text.toList ::
        snapshot.countersText.toList :: (printed.map fun l => l.text.toList) ++ [[]] ∧
      PrintsChangedRows snapshot.memory printed ∧
      (∀ address bytes, ShowsRow (Line.row address bytes).text.toList address bytes) ∧
      Line.repeated.text = "*" := by
  refine ⟨HexDump.lines (rows snapshot.memory), ?_, printsChangedRows_lines _, showsRow_text, rfl⟩
  rw [splitOn_text, Snapshot.lines, List.map_cons, List.map_cons, List.map_map]
  rfl

end Snapshot

end Mos6502

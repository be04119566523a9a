import Mos6502.Hexadecimal

/-!
# Hexadecimal dumps

Bytes in rows of sixteen, each behind its address. A row that is the same as the one above it is
left out; where rows are left out, a star stands for all of them. The rows together are the
bytes (`flatten_rows`).
-/

namespace Mos6502.HexDump

/-! ## Rows -/

/-- The number of bytes in a row. -/
def rowLength : Nat := 16

/-- Cut bytes into rows. Only the last row can be shorter than the others, and none is empty. -/
def rows (bytes : List UInt8) : List (List UInt8) :=
  if bytes = [] then
    []
  else
    bytes.take rowLength :: rows (bytes.drop rowLength)
termination_by bytes.length
decreasing_by
  have : 0 < bytes.length := List.length_pos_iff.mpr (by assumption)
  simp only [List.length_drop, rowLength]
  omega

theorem flatten_rows (bytes : List UInt8) : (rows bytes).flatten = bytes := by
  fun_induction rows bytes with
  | case1 => rfl
  | case2 bytes _ ih => rw [List.flatten_cons, ih, List.take_append_drop]

/-! ## Lines -/

/-- A line of a dump. -/
inductive Line where
  /-- The bytes from an address on. -/
  | row (address : Nat) (bytes : List UInt8)
  /-- One or more rows the same as the row above. -/
  | repeated
  deriving DecidableEq, Repr

/-- The text of a line, without its end. -/
def Line.text : Line → String
  | row address bytes =>
    Hexadecimal.text 4 address ++ ":" ++ String.join (bytes.map fun b => " " ++ Hexadecimal.byte b)
  | repeated => "*"

/-- The lines for the rows below `above`, the first of which is at `address`. `starred` says
whether the star that stands for rows like `above` has been written. -/
def linesBelow (above : List UInt8) (starred : Bool) (address : Nat) :
    List (List UInt8) → List Line
  | [] => []
  | bytes :: rest =>
    if bytes = above then
      if starred then
        linesBelow above true (address + rowLength) rest
      else
        .repeated :: linesBelow above true (address + rowLength) rest
    else
      .row address bytes :: linesBelow bytes false (address + rowLength) rest

/-- The lines for rows, the first of which is at address zero. -/
def lines : List (List UInt8) → List Line
  | [] => []
  | bytes :: rest => .row 0 bytes :: linesBelow bytes false rowLength rest

end Mos6502.HexDump

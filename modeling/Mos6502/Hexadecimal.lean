/-!
# Hexadecimal text

Numbers are written in upper-case hexadecimal with a least number of digits. A number that
needs more digits than that gets them all, so no two numbers share a text of one least width.
-/

namespace Mos6502.Hexadecimal

/-- The digits of `n`, most significant first, padded with zeros to at least `width`. -/
def digits (width n : Nat) : List Char :=
  ((Nat.toDigits 16 n).map Char.toUpper).leftpad width '0'

/-- The text of `n` with at least `width` digits. -/
def text (width n : Nat) : String :=
  String.ofList (digits width n)

/-- Two digits. -/
def byte (b : UInt8) : String :=
  text 2 b.toNat

/-- Four digits. -/
def word (w : UInt16) : String :=
  text 4 w.toNat

end Mos6502.Hexadecimal

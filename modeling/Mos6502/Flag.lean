/-!
# Status flags

Seven of the eight bits of the status register are flags. Bit 5 belongs to none of them.

```text
bit  7 6 5 4 3 2 1 0
     N V - B D I Z C
```
-/

namespace Mos6502

/-- A flag of the status register. -/
inductive Flag where
  /-- An addition carried out of bit 7, or a shift moved a one out of it. -/
  | carry
  /-- The last result was zero. -/
  | zero
  /-- Maskable interrupts are disabled. -/
  | interruptDisable
  /-- Decimal mode. It is stored and has no effect. -/
  | decimal
  /-- A break instruction raised the interrupt. -/
  | brk
  /-- The last signed sum left the range of a byte. -/
  | overflow
  /-- Bit 7 of the last result. -/
  | negative
  deriving DecidableEq, Repr

namespace Flag

/-- The bit of the status register that holds the flag. -/
def mask : Flag → UInt8
  | carry => 0x01
  | zero => 0x02
  | interruptDisable => 0x04
  | decimal => 0x08
  | brk => 0x10
  | overflow => 0x40
  | negative => 0x80

end Flag

/-! ## The status letters -/

/-- The letter of each bit of the status register, from bit 7 down. -/
def statusLetters : List (UInt8 × Char) :=
  [(0x80, 'N'), (0x40, 'V'), (0x20, '-'), (0x10, 'B'),
    (0x08, 'D'), (0x04, 'I'), (0x02, 'Z'), (0x01, 'C')]

/-- Eight characters: the letter of each bit that is set, a full stop for each that is not. -/
def statusText (status : UInt8) : String :=
  String.ofList (statusLetters.map fun (bit, letter) => if status &&& bit ≠ 0 then letter else '.')

end Mos6502

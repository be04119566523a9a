import Mos6502.Hexadecimal
import Mos6502.Register
import Mos6502.Flag

/-!
# The registers

Five byte registers and a program counter of sixteen bits. The status register is a packed
byte; a flag is set by an `or` with its bit and cleared by an `and` with the complement, so no
update of one flag disturbs another or bit 5.
-/

namespace Mos6502

/-- The registers of a processor. New ones hold zeros. -/
structure Registers where
  a : UInt8 := 0
  y : UInt8 := 0
  x : UInt8 := 0
  s : UInt8 := 0
  p : UInt8 := 0
  pc : UInt16 := 0
  deriving DecidableEq, Repr, Inhabited

namespace Registers

/-! ## Cells -/

/-- The value of a byte register. -/
def get (regs : Registers) : Register → UInt8
  | .a => regs.a
  | .y => regs.y
  | .x => regs.x
  | .s => regs.s
  | .p => regs.p

/-- Replace the value of a byte register. -/
def set (regs : Registers) (register : Register) (value : UInt8) : Registers :=
  match register with
  | .a => { regs with a := value }
  | .y => { regs with y := value }
  | .x => { regs with x := value }
  | .s => { regs with s := value }
  | .p => { regs with p := value }

theorem get_set (regs : Registers) (register other : Register) (value : UInt8) :
    (regs.set register value).get other = if register = other then value else regs.get other := by
  cases register <;> cases other <;> rfl

/-- Replace the program counter, without reducing it into any memory. -/
def setPc (regs : Registers) (pc : UInt16) : Registers :=
  { regs with pc }

/-! ## Flags -/

/-- Whether a flag is set. -/
def flag (regs : Registers) (f : Flag) : Bool :=
  regs.p &&& f.mask ≠ 0

/-- Set or clear one flag. -/
def setFlag (regs : Registers) (f : Flag) (on : Bool) : Registers :=
  { regs with p := if on then regs.p ||| f.mask else regs.p &&& ~~~f.mask }

/-- The sign bit of a byte. -/
def signBit (value : UInt8) : UInt8 :=
  value &&& 0x80

/-- Let the zero flag say whether `result` is zero, and the negative flag be its bit 7. -/
def withSignOf (regs : Registers) (result : UInt8) : Registers :=
  (regs.setFlag .zero (result == 0)).setFlag .negative (signBit result ≠ 0)

/-- Let the carry flag say whether an unsigned sum needs more than a byte. -/
def withCarryOf (regs : Registers) (sum : UInt16) : Registers :=
  regs.setFlag .carry (sum > 0xFF)

/-- Let the overflow flag say whether both operands of a sum have one sign and the result has
the other. -/
def withOverflowOf (regs : Registers) (lhs rhs result : UInt8) : Registers :=
  regs.setFlag .overflow (signBit lhs == signBit rhs && signBit lhs != signBit result)

/-! ## Text -/

/-- One line: the program counter, the cells, and the status register by its letters. -/
def text (regs : Registers) : String :=
  s!"PC={Hexadecimal.word regs.pc} A={Hexadecimal.byte regs.a} X={Hexadecimal.byte regs.x} " ++
    s!"Y={Hexadecimal.byte regs.y} S={Hexadecimal.byte regs.s} P={Hexadecimal.byte regs.p} " ++
    s!"[{statusText regs.p}]"

end Registers

end Mos6502

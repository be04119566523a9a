/-!
# The memory bus

A bus is what the processor reads bytes from and writes bytes to. It gets addresses as the
processor computed them, not yet reduced, and has to reduce them into its own range: neither a
read nor a write ever fails. Reading passes the bus on, so that a bus can take note of it.
-/

namespace Mos6502

/-- The values of `β` can be used as memory. -/
class Bus (β : Type) where
  /-- The number of addressable bytes. -/
  size : β → Nat
  /-- Read the byte at an address, which is taken modulo the size. -/
  read (address : Nat) : StateM β UInt8
  /-- Write a byte at an address, which is taken modulo the size. -/
  write (address : Nat) (value : UInt8) : StateM β Unit

namespace Bus

variable {β : Type} [Bus β]

/-- Reduce an address into the range of a bus. -/
def reduce (bus : β) (address : Nat) : Nat :=
  address % size bus

/-- Read a byte of the zero page. -/
def readZeroPage (address : UInt8) : StateM β UInt8 :=
  read address.toNat

/-- Write a byte of the zero page. -/
def writeZeroPage (address value : UInt8) : StateM β Unit :=
  write address.toNat value

/-- Read every byte in the order of the addresses. -/
def readAll : StateM β (List UInt8) := do
  (List.range (size (← get))).mapM fun address => read address

/-- Two bytes, the low one first, as an address. -/
def littleEndian (low high : UInt8) : UInt16 :=
  high.toUInt16 <<< 8 ||| low.toUInt16

end Bus

end Mos6502

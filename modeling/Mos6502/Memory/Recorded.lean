import Mos6502.Memory.Bus

/-!
# Recorded buses

A bus that behaves as the one it holds and keeps a list of the accesses made through it, each
with its address as the processor passed it.
-/

namespace Mos6502

/-- One use of a bus. -/
inductive Access where
  /-- The byte `value` was read. -/
  | read (address : Nat) (value : UInt8)
  /-- The byte `value` was offered, whether or not the bus took it. -/
  | write (address : Nat) (value : UInt8)
  deriving DecidableEq, Repr

/-- A bus together with the accesses made so far, oldest first. -/
structure Recorded (β : Type) where
  bus : β
  accesses : Array Access := #[]

instance {β : Type} [Bus β] : Bus (Recorded β) where
  size recorded := Bus.size recorded.bus
  read address := fun ⟨bus, accesses⟩ =>
    let (value, bus) := (Bus.read address).run bus
    (value, ⟨bus, accesses.push (.read address value)⟩)
  write address value := fun ⟨bus, accesses⟩ =>
    let ((), bus) := (Bus.write address value).run bus
    ((), ⟨bus, accesses.push (.write address value)⟩)

end Mos6502

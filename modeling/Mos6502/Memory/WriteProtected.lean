import Mos6502.Memory.Bus

/-!
# Write-protected buses

A bus that behaves as the one it holds, but ignores writes to a range of its cells, as a board
does with a read-only chip in its address space.
-/

namespace Mos6502

/-- A bus together with the half-open range of cells that cannot be written. -/
structure WriteProtected (β : Type) where
  bus : β
  low : Nat
  high : Nat

/-- Whether a write at `address` is ignored. -/
def WriteProtected.protects {β : Type} [Bus β] (chip : WriteProtected β) (address : Nat) :
    Bool :=
  let cell := Bus.reduce chip.bus address
  chip.low ≤ cell && cell < chip.high

instance {β : Type} [Bus β] : Bus (WriteProtected β) where
  size chip := Bus.size chip.bus
  read address := fun ⟨bus, low, high⟩ =>
    let (value, bus) := (Bus.read address).run bus
    (value, ⟨bus, low, high⟩)
  write address value := fun chip =>
    if chip.protects address then
      ((), chip)
    else
      let ⟨bus, low, high⟩ := chip
      let ((), bus) := (Bus.write address value).run bus
      ((), ⟨bus, low, high⟩)

end Mos6502

import Mos6502.Proofs.Memory.Mirrored
import Mos6502.Proofs.Memory.Readable

/-!
# Lawful buses

A lawful bus is a flat memory to its users: its reads show the memory behind it, and a write
changes that memory as it changes a flat one, in the one cell that its address is reduced to. So
this memory is an image of the bus (`mirrored_memory`).
-/

namespace Mos6502

/-- A bus whose reads show, and whose writes change, a flat memory. -/
class LawfulBus (β : Type) [Bus β] extends ReadableBus β where
  memory_write (bus : β) (address : Nat) (value : UInt8) :
    memory ((Bus.write address value).run bus).2 = (memory bus).set address value

/-! ## Buses that are lawful -/

instance : LawfulBus Memory where
  memory_write _ _ _ := rfl

instance {β : Type} [Bus β] [LawfulBus β] : LawfulBus (Recorded β) where
  memory_write recorded := LawfulBus.memory_write recorded.bus

/-! ## The memory behind a bus -/

/-- **The memory behind a bus** is an image of it. -/
theorem Bus.mirrored_memory {β : Type} [Bus β] [LawfulBus β] :
    Mirrored (ReadableBus.memory (β := β)) where
  size bus := (ReadableBus.size_eq bus).symm
  read address bus := by
    rw [ReadableBus.value_read, ReadableBus.memory_read]
    rfl
  write address value bus := by
    rw [LawfulBus.memory_write]
    rfl

end Mos6502

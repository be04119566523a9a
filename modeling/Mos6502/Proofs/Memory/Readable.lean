import Mos6502.Memory.Flat
import Mos6502.Memory.Recorded
import Mos6502.Memory.WriteProtected

/-!
# Readable buses

Behind a readable bus there is a flat memory: a read gives a byte of it and leaves it as it is.
Nothing is said about writes, so a bus that ignores some of them is readable too. What a bus does
besides, such as taking notes, shows in `afterReads`: it is the bus that is left by reads of given
addresses in a given order, and by nothing else.
-/

namespace Mos6502

/-- A bus whose reads show a flat memory. -/
class ReadableBus (β : Type) [Bus β] where
  /-- The memory behind the bus. -/
  memory : β → Memory
  size_eq (bus : β) : Bus.size bus = (memory bus).size
  value_read (bus : β) (address : Nat) :
    ((Bus.read address).run bus).1 = (memory bus).get address
  memory_read (bus : β) (address : Nat) :
    memory ((Bus.read address).run bus).2 = memory bus

/-! ## Buses that are readable -/

instance : ReadableBus Memory where
  memory bus := bus
  size_eq _ := rfl
  value_read _ _ := rfl
  memory_read _ _ := rfl

instance {β : Type} [Bus β] [ReadableBus β] : ReadableBus (Recorded β) where
  memory recorded := ReadableBus.memory recorded.bus
  size_eq recorded := ReadableBus.size_eq recorded.bus
  value_read recorded := ReadableBus.value_read recorded.bus
  memory_read recorded := ReadableBus.memory_read recorded.bus

instance {β : Type} [Bus β] [ReadableBus β] : ReadableBus (WriteProtected β) where
  memory chip := ReadableBus.memory chip.bus
  size_eq chip := ReadableBus.size_eq chip.bus
  value_read chip := ReadableBus.value_read chip.bus
  memory_read chip := ReadableBus.memory_read chip.bus

/-! ## Reads in a row -/

namespace Bus

variable {β : Type} [Bus β]

/-- The bus after the bytes at some addresses were read, in this order. -/
def afterReads (addresses : List Nat) (bus : β) : β :=
  addresses.foldl (fun bus address => ((read address).run bus).2) bus

theorem afterReads_cons (address : Nat) (rest : List Nat) (bus : β) :
    afterReads (address :: rest) bus = afterReads rest ((read address).run bus).2 :=
  rfl

variable [ReadableBus β]

theorem memory_afterReads (addresses : List Nat) (bus : β) :
    ReadableBus.memory (afterReads addresses bus) = ReadableBus.memory bus := by
  induction addresses generalizing bus with
  | nil => rfl
  | cons address rest ih => rw [afterReads_cons, ih, ReadableBus.memory_read]

/-- A recorded bus shows that there were reads and nothing else. -/
theorem accesses_afterReads (addresses : List Nat) (recorded : Recorded β) :
    (afterReads addresses recorded).accesses.toList = recorded.accesses.toList ++
      addresses.map fun address =>
        .read address ((ReadableBus.memory recorded.bus).get address) := by
  induction addresses generalizing recorded with
  | nil => exact (List.append_nil _).symm
  | cons address rest ih =>
    have hread : ((read address).run recorded).2 = ⟨((read address).run recorded.bus).2,
      recorded.accesses.push (.read address ((read address).run recorded.bus).1)⟩ := rfl
    rw [afterReads_cons, ih, hread, ReadableBus.memory_read, ReadableBus.value_read,
      Array.toList_push, List.append_assoc, List.map_cons]
    rfl

theorem run_mapM_read (addresses : List Nat) (bus : β) :
    (addresses.mapM fun address => read address).run bus =
      (addresses.map (ReadableBus.memory bus).get, afterReads addresses bus) := by
  induction addresses generalizing bus with
  | nil => rfl
  | cons address rest ih =>
    rw [List.mapM_cons, StateT.run_bind]
    show StateT.run (rest.mapM _ >>= _) ((read address).run bus).2 = _
    rw [StateT.run_bind, ih, ReadableBus.memory_read]
    show (((read address).run bus).1 :: _, _) = _
    rw [ReadableBus.value_read]
    rfl

end Bus

/-- The bytes of a memory in the order of the addresses. -/
theorem Memory.map_get_range (memory : Memory) :
    (List.range memory.size).map memory.get = memory.data.toList := by
  refine List.ext_getElem (by simp [size]) fun i h _ => ?_
  have hi : i < memory.data.size := by simpa [size] using h
  simp [get, Nat.mod_eq_of_lt hi]

/-- **Reading everything** gives the memory behind the bus, and leaves what the reads leave. -/
theorem Bus.run_readAll {β : Type} [Bus β] [ReadableBus β] (bus : β) :
    (readAll).run bus = ((ReadableBus.memory bus).data.toList,
      afterReads (List.range (ReadableBus.memory bus).size) bus) := by
  unfold readAll
  show (((List.range (size bus)).mapM fun address => read address).run bus) = _
  rw [run_mapM_read, ReadableBus.size_eq, Memory.map_get_range]

end Mos6502

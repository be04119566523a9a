import Mos6502.SetupError
import Mos6502.Memory.Bus

/-!
# Flat memory

A fixed number of bytes, at least one and at most as many as the program counter can reach.
Every address is reduced modulo that number, so a memory is seen through `get`, and `get_set`
says all there is to say about a write.
-/

namespace Mos6502

/-- The number of addresses of sixteen bits. -/
def addressSpace : Nat := 65536

/-- A memory of one block of bytes. -/
structure Memory where
  data : Array UInt8
  size_pos : 0 < data.size
  size_le : data.size ≤ addressSpace
  deriving DecidableEq

namespace Memory

/-- The number of bytes. -/
def size (memory : Memory) : Nat :=
  memory.data.size

/-! ## New memories -/

/-- A memory of `n` zeros. -/
def zeros (n : Nat) (pos : 0 < n) (le : n ≤ addressSpace) : Memory where
  data := Array.replicate n 0
  size_pos := by simpa using pos
  size_le := by simpa using le

/-- A memory of zeros that fills the address space. -/
def full : Memory :=
  zeros addressSpace (by decide) (by decide)

/-- A memory of `n` zeros, if there can be one. -/
def create (n : Nat) : Except SetupError Memory :=
  if h : 0 < n ∧ n ≤ addressSpace then
    .ok (zeros n h.1 h.2)
  else
    .error (.invalidMemorySize n)

/-! ## Bytes -/

/-- The byte at an address. -/
def get (memory : Memory) (address : Nat) : UInt8 :=
  have below : address % memory.data.size < memory.data.size := Nat.mod_lt _ memory.size_pos
  memory.data[address % memory.data.size]

/-- Replace the byte at an address. -/
def set (memory : Memory) (address : Nat) (value : UInt8) : Memory :=
  let ⟨data, size_pos, size_le⟩ := memory
  { data := data.set (address % data.size) value (Nat.mod_lt _ size_pos)
    size_pos := by simpa using size_pos
    size_le := by simpa using size_le }

@[simp]
theorem size_set (memory : Memory) (address : Nat) (value : UInt8) :
    (memory.set address value).size = memory.size := by
  simp [set, size]

theorem get_set (memory : Memory) (address other : Nat) (value : UInt8) :
    (memory.set address value).get other =
      if address % memory.size = other % memory.size then value else memory.get other := by
  simp only [get, set, size, Array.size_set, Array.getElem_set]
  rfl

instance : Bus Memory where
  size := size
  read address := fun memory => (memory.get address, memory)
  write address value := fun memory => ((), memory.set address value)

/-! ## Images -/

/-- Copy an image into memory from `start` on. Each address is of 64 bits and wraps on its own,
so an image that runs over the end of memory goes on at its beginning. -/
def load (memory : Memory) (start : UInt64) : List UInt8 → Memory
  | [] => memory
  | byte :: rest => (memory.set start.toNat byte).load (start + 1) rest

@[simp]
theorem size_load (memory : Memory) (start : UInt64) (image : List UInt8) :
    (memory.load start image).size = memory.size := by
  induction image generalizing memory start with
  | nil => rfl
  | cons byte rest ih => rw [load, ih, size_set]

/-- The `n` bytes from `start` on, cut at the end of memory. -/
def slice (memory : Memory) (start n : Nat) : List UInt8 :=
  (memory.data.extract start (start + n)).toList

end Memory

end Mos6502

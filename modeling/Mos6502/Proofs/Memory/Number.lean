import Mathlib.Tactic.Ring
import Mos6502.Memory.Flat

/-!
# Numbers and texts in memory

A stretch of a flat memory is read in two ways: as given bytes (`Holds`), which is how a program
lies in memory, and as a number with its lowest byte first (`number`). Both depend on the bytes of
the stretch alone.
-/

namespace Mos6502

/-! ## Two bytes -/

/-- The low byte of an address. -/
def lowByte (address : Nat) : UInt8 := (address % 256).toUInt8

/-- The byte above the low one. -/
def highByte (address : Nat) : UInt8 := (address / 256).toUInt8

theorem toNat_littleEndian (low high : UInt8) :
    (Bus.littleEndian low high).toNat = low.toNat + 256 * high.toNat := by
  have hlow := low.toNat_lt
  have hhigh := high.toNat_lt
  have hshift : high.toNat <<< 8 = 2 ^ 8 * high.toNat := by
    rw [Nat.shiftLeft_eq, Nat.mul_comm]
  unfold Bus.littleEndian
  rw [UInt16.toNat_or, UInt16.toNat_shiftLeft]
  simp only [UInt8.toNat_toUInt16, UInt16.toNat_ofNat, Nat.reduceMod, Nat.reducePow]
  rw [hshift, Nat.mod_eq_of_lt (by omega), ← Nat.two_pow_add_eq_or_of_lt (by omega), Nat.add_comm]

/-- **An address is put together again** from its two bytes. -/
theorem toNat_littleEndian_bytes {address : Nat} (h : address < addressSpace) :
    (Bus.littleEndian (lowByte address) (highByte address)).toNat = address := by
  have hlt : address < 65536 := h
  have hlow : (lowByte address).toNat = address % 256 :=
    UInt8.toNat_ofNat_of_lt (by show _ < 256; omega)
  have hhigh : (highByte address).toNat = address / 256 :=
    UInt8.toNat_ofNat_of_lt (by show _ < 256; omega)
  rw [toNat_littleEndian, hlow, hhigh]
  omega

namespace Memory

variable (memory : Memory)

/-! ## Bytes in a row -/

/-- The given bytes are in memory from `start` on. -/
def Holds (start : Nat) (bytes : List UInt8) : Prop :=
  ∀ (i : Nat) (h : i < bytes.length), memory.get (start + i) = bytes[i]

instance (start : Nat) (bytes : List UInt8) : Decidable (memory.Holds start bytes) :=
  inferInstanceAs
    (Decidable (∀ (i : Nat) (h : i < bytes.length), memory.get (start + i) = bytes[i]))

variable {memory} {other : Memory} {start : Nat}

theorem Holds.left {bytes rest : List UInt8} (h : memory.Holds start (bytes ++ rest)) :
    memory.Holds start bytes := by
  intro i hi
  rw [h i (by rw [List.length_append]; omega), List.getElem_append_left hi]

theorem Holds.right {bytes rest : List UInt8} (h : memory.Holds start (bytes ++ rest)) :
    memory.Holds (start + bytes.length) rest := by
  intro i hi
  have hget := h (bytes.length + i) (by rw [List.length_append]; omega)
  rw [List.getElem_append_right (by omega)] at hget
  simpa [Nat.add_assoc] using hget

theorem Holds.congr {bytes : List UInt8} (h : memory.Holds start bytes)
    (hsame : ∀ i < bytes.length, other.get (start + i) = memory.get (start + i)) :
    other.Holds start bytes := by
  intro i hi
  rw [hsame i hi, h i hi]

/-! ## Numbers -/

/-- The number in the `n` bytes from `start` on, its lowest byte first. -/
def number (memory : Memory) (start : Nat) : (n : Nat) → Nat
  | 0 => 0
  | n + 1 => memory.number start n + 256 ^ n * (memory.get (start + n)).toNat

theorem number_lt (memory : Memory) (start n : Nat) : memory.number start n < 256 ^ n := by
  induction n with
  | zero => exact Nat.one_pos
  | succ n ih =>
    have hbyte := (memory.get (start + n)).toNat_lt
    calc memory.number start n + 256 ^ n * (memory.get (start + n)).toNat
        < 256 ^ n + 256 ^ n * (memory.get (start + n)).toNat := Nat.add_lt_add_right ih _
      _ = 256 ^ n * ((memory.get (start + n)).toNat + 1) := by ring
      _ ≤ 256 ^ n * 256 := Nat.mul_le_mul_left _ hbyte
      _ = 256 ^ (n + 1) := (Nat.pow_succ ..).symm

theorem number_congr {n : Nat}
    (h : ∀ i < n, other.get (start + i) = memory.get (start + i)) :
    other.number start n = memory.number start n := by
  induction n with
  | zero => rfl
  | succ n ih =>
    have hbelow := ih fun i hi => h i (Nat.lt_succ_of_lt hi)
    unfold number
    rw [hbelow, h n (Nat.lt_succ_self n)]

end Memory

end Mos6502

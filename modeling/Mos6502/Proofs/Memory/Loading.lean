import Mathlib.Data.List.Induction
import Mathlib.Data.Nat.ModEq
import Mathlib.Order.Bounds.Basic
import Mos6502.Proofs.Memory.Readable

/-!
# Images of any length

An image is written byte by byte, and each byte goes to the cell that its own address is reduced to.
Two moduli are met on the way: addresses are of 64 bits, and the size of the memory need not divide
2^64. An image that is longer than the memory writes over its own beginning.

**The last writer** (`get_load_eq`). The bytes of an image are numbered from 0. A cell holds the
byte with the greatest number among those that go there, and keeps what it holds if there is none.
The proof goes through the image from its end: the last byte is written over all others.

**Reading back** (`cellOf_inj`). An image that is not longer than the memory is in different cells,
unless its addresses wrap at 2^64 and the size of the memory does not divide that.

Main result: `load_last_writer_wins`.
-/

namespace Mos6502.Memory

/-! ## Where the bytes go -/

/-- The address of the byte number `i` of an image that is loaded from `start` on. -/
def addressOf (start : UInt64) (i : Nat) : Nat :=
  (start.toNat + i) % 2 ^ 64

/-- The cell of a memory of `size` bytes in which that byte goes. -/
def cellOf (size : Nat) (start : UInt64) (i : Nat) : Nat :=
  addressOf start i % size

/-- The numbers of the bytes of an image that go in a cell. -/
def writers (size : Nat) (start : UInt64) (image : List UInt8) (cell : Nat) : Set Nat :=
  {i | i < image.length ∧ cellOf size start i = cell}

theorem toNat_start_add (start : UInt64) (i : Nat) :
    (start + i.toUInt64).toNat = addressOf start i := by
  rw [UInt64.toNat_add]
  exact Nat.add_mod_mod ..

/-! ## Images one after another -/

variable {memory : Memory} {start : UInt64} {image : List UInt8} {cell : Nat}

theorem load_append (memory : Memory) (start : UInt64) (image following : List UInt8) :
    memory.load start (image ++ following) =
      (memory.load start image).load (start + image.length.toUInt64) following := by
  induction image generalizing memory start with
  | nil =>
    show memory.load start following = memory.load (start + 0) following
    rw [UInt64.add_zero]
  | cons byte rest ih =>
    have hnext : start + 1 + rest.length.toUInt64 = start + (rest.length + 1).toUInt64 := by
      rw [UInt64.add_assoc, UInt64.add_comm 1]
      exact congrArg (start + ·) (UInt64.ofNat_add rest.length 1).symm
    rw [List.cons_append, load, ih, hnext]
    rfl

theorem load_concat (memory : Memory) (start : UInt64) (image : List UInt8) (byte : UInt8) :
    memory.load start (image ++ [byte]) =
      (memory.load start image).set (addressOf start image.length) byte := by
  rw [load_append, load, load, toNat_start_add]

/-! ## The last writer -/

theorem get_load_concat (address : Nat) (byte : UInt8) :
    (memory.load start (image ++ [byte])).get address =
      if cellOf memory.size start image.length = address % memory.size then byte
      else (memory.load start image).get address := by
  rw [load_concat, get_set, size_load]
  rfl

/-- The last byte of an image is the last writer of its cell. -/
theorem isGreatest_writers_concat {size : Nat} {byte : UInt8}
    (h : cellOf size start image.length = cell) :
    IsGreatest (writers size start (image ++ [byte]) cell) image.length := by
  refine ⟨⟨by simp, h⟩, fun i hi => ?_⟩
  have hlt := hi.1
  rw [List.length_append] at hlt
  exact Nat.le_of_lt_succ hlt

/-- In another cell it makes no difference. -/
theorem writers_concat_of_ne {size : Nat} {byte : UInt8}
    (h : cellOf size start image.length ≠ cell) :
    writers size start (image ++ [byte]) cell = writers size start image cell := by
  ext i
  refine ⟨fun ⟨hlt, hcell⟩ => ⟨?_, hcell⟩, fun ⟨hlt, hcell⟩ => ⟨?_, hcell⟩⟩
  · rw [List.length_append] at hlt
    refine Nat.lt_of_le_of_ne (Nat.le_of_lt_succ hlt) ?_
    rintro rfl
    exact h hcell
  · rw [List.length_append]
    exact Nat.lt_succ_of_lt hlt

/-- **The last writer wins.** -/
theorem get_load_of_isGreatest {address i : Nat}
    (h : IsGreatest (writers memory.size start image (address % memory.size)) i) :
    image[i]? = some ((memory.load start image).get address) := by
  induction image using List.reverseRecOn with
  | nil => exact absurd h.1.1 (Nat.not_lt_zero i)
  | append_singleton image byte ih =>
    rw [get_load_concat]
    by_cases hlast : cellOf memory.size start image.length = address % memory.size
    · obtain rfl := h.unique (isGreatest_writers_concat hlast)
      rw [if_pos hlast, List.getElem?_concat_length]
    · rw [writers_concat_of_ne hlast] at h
      rw [if_neg hlast, List.getElem?_append_left h.1.1]
      exact ih h

/-- **A cell without a writer** is left alone. -/
theorem get_load_of_writers_eq_empty {address : Nat}
    (h : writers memory.size start image (address % memory.size) = ∅) :
    (memory.load start image).get address = memory.get address := by
  induction image using List.reverseRecOn with
  | nil => rfl
  | append_singleton image byte ih =>
    have hlast : cellOf memory.size start image.length ≠ address % memory.size := fun hlast =>
      Set.eq_empty_iff_forall_notMem.mp h _ (isGreatest_writers_concat hlast).1
    rw [writers_concat_of_ne hlast] at h
    rw [get_load_concat, if_neg hlast]
    exact ih h

/-! ## Reading back -/

/-- Without a wrap at 2^64, or if the wrap makes no difference, one modulus is enough. -/
theorem cellOf_eq_mod {size n : Nat} (hsize : size ≤ addressSpace)
    (h : start.toNat + n ≤ 2 ^ 64 ∨ ∃ k, size = 2 ^ k) {i : Nat} (hi : i < n) :
    cellOf size start i = (start.toNat + i) % size := by
  unfold cellOf addressOf
  rcases h with hbelow | ⟨k, rfl⟩
  · rw [Nat.mod_eq_of_lt (Nat.lt_of_lt_of_le (Nat.add_lt_add_left hi _) hbelow)]
  · have hk : k ≤ 16 := (Nat.pow_le_pow_iff_right (by decide)).mp hsize
    exact Nat.mod_mod_of_dvd _ (Nat.pow_dvd_pow 2 (Nat.le_trans hk (by decide)))

/-- **An image that fits is in different cells.** -/
theorem cellOf_inj {size n : Nat} (hsize : size ≤ addressSpace) (hfit : n ≤ size)
    (h : start.toNat + n ≤ 2 ^ 64 ∨ ∃ k, size = 2 ^ k) {i j : Nat} (hi : i < n) (hj : j < n)
    (hsame : cellOf size start i = cellOf size start j) : i = j := by
  rw [cellOf_eq_mod hsize h hi, cellOf_eq_mod hsize h hj] at hsame
  exact (Nat.ModEq.add_left_cancel' start.toNat hsame).eq_of_lt_of_lt
    (Nat.lt_of_lt_of_le hi hfit) (Nat.lt_of_lt_of_le hj hfit)

/-- The wrap at 2^64 makes a difference to three cells: a byte at 2^64 - 1 and the one behind it go
in the same. -/
example : cellOf 3 0xFFFFFFFFFFFFFFFF 0 = cellOf 3 0xFFFFFFFFFFFFFFFF 1 := by
  decide

/-- **An image that fits is read back**, byte by byte. -/
theorem map_get_load (hfit : image.length ≤ memory.size)
    (h : start.toNat + image.length ≤ 2 ^ 64 ∨ ∃ k, memory.size = 2 ^ k) :
    (List.range image.length).map (fun i => (memory.load start image).get (addressOf start i)) =
      image := by
  refine List.ext_getElem? fun i => ?_
  by_cases hi : i < image.length
  · have hgreatest :
        IsGreatest (writers memory.size start image (addressOf start i % memory.size)) i :=
      ⟨⟨hi, rfl⟩, fun j hj => Nat.le_of_eq (cellOf_inj memory.size_le hfit h hj.1 hi hj.2)⟩
    rw [List.getElem?_map, List.getElem?_range hi, get_load_of_isGreatest hgreatest]
    rfl
  · rw [List.getElem?_eq_none (by simpa using hi), List.getElem?_eq_none (Nat.not_lt.mp hi)]

/-- **The last writer wins**, over addresses that wrap at 2^64 and at the end of the memory.

A cell holds the last of those bytes of the image that go there, and what it held before if there
are none. So an image is loaded in two parts as it is loaded at once. An image that is not longer
than the memory is read back from where it was loaded, if no address wraps at 2^64 or if the size
of the memory is a power of two. -/
theorem load_last_writer_wins (memory : Memory) (start : UInt64) (image : List UInt8) :
    (memory.load start image).size = memory.size ∧
      (∀ cell < memory.size,
        (∀ i, IsGreatest (writers memory.size start image cell) i →
          image[i]? = some ((memory.load start image).get cell)) ∧
        (writers memory.size start image cell = ∅ →
          (memory.load start image).get cell = memory.get cell)) ∧
      (∀ following : List UInt8, memory.load start (image ++ following) =
        (memory.load start image).load (start + image.length.toUInt64) following) ∧
      (image.length ≤ memory.size →
        start.toNat + image.length ≤ 2 ^ 64 ∨ (∃ k, memory.size = 2 ^ k) →
        (List.range image.length).map
          (fun i => (memory.load start image).get (start + i.toUInt64).toNat) = image) := by
  refine ⟨memory.size_load start image, fun cell hcell => ?_, memory.load_append start image,
    fun hfit h => ?_⟩
  · have hsame : cell % memory.size = cell := Nat.mod_eq_of_lt hcell
    exact ⟨fun i hi => get_load_of_isGreatest (hsame.symm ▸ hi),
      fun hnone => get_load_of_writers_eq_empty (hsame.symm ▸ hnone)⟩
  · simp only [toNat_start_add]
    exact map_get_load hfit h

/-- Five bytes from 2^64 - 2 on, in four cells: the last of them is written over the first. -/
theorem load_last_writer_wins_wrapped :
    let memory := zeros 4 (by decide) (by decide)
    let start : UInt64 := 0xFFFFFFFFFFFFFFFE
    IsGreatest (writers 4 start [1, 2, 3, 4, 5] 2) 4 ∧
      (memory.load start [1, 2, 3, 4, 5]).get 2 = 5 ∧
      writers 4 start [1, 2, 3] 1 = ∅ ∧
      (memory.load start [1, 2, 3]).get 1 = 0 ∧
      [0, 1, 2].map (fun i => (memory.load start [1, 2, 3]).get (start + i.toUInt64).toNat) =
        [1, 2, 3] := by
  intro memory start
  have hgreatest : IsGreatest (writers 4 start [1, 2, 3, 4, 5] 2) 4 :=
    ⟨⟨by decide, by decide⟩, fun i hi => Nat.le_of_lt_succ hi.1⟩
  have hothers : ∀ i < 3, cellOf 4 start i ≠ 1 := by decide
  have hempty : writers 4 start [1, 2, 3] 1 = ∅ :=
    Set.eq_empty_iff_forall_notMem.mpr fun i hi => hothers i hi.1 hi.2
  obtain ⟨-, hcells, -, -⟩ := load_last_writer_wins memory start [1, 2, 3, 4, 5]
  obtain ⟨-, hcells', -, hread⟩ := load_last_writer_wins memory start [1, 2, 3]
  have hlast := (hcells 2 (by decide)).1 4 hgreatest
  exact ⟨hgreatest, (Option.some.inj hlast).symm, hempty, (hcells' 1 (by decide)).2 hempty,
    hread (by decide) (.inr ⟨2, rfl⟩)⟩

end Mos6502.Memory

import Mos6502.Proofs.Memory.Readable

/-!
# Images in memory

An image that fits behind its start fills the cells from there on, and no address wraps
(`get_load`). A memory is known by its size and its bytes (`eq_of_get`).

Main result: all bytes of a memory, loaded at its beginning into any memory of its size, give the
memory again (`load_data`).
-/

namespace Mos6502.Memory

variable {memory other : Memory}

theorem eq_of_get (hsize : memory.size = other.size)
    (hget : ∀ address < other.size, memory.get address = other.get address) : memory = other := by
  have hdata : memory.data.toList = other.data.toList := by
    rw [← map_get_range, ← map_get_range, hsize]
    exact List.map_congr_left fun address h => hget address (List.mem_range.mp h)
  obtain ⟨data, _, _⟩ := memory
  obtain ⟨data', _, _⟩ := other
  obtain rfl : data = data' := Array.toList_inj.mp hdata
  rfl

theorem get_set_of_lt {address cell : Nat} (hcell : cell < memory.size)
    (haddress : address < memory.size) (value : UInt8) :
    (memory.set cell value).get address = if cell = address then value else memory.get address := by
  rw [get_set, Nat.mod_eq_of_lt hcell, Nat.mod_eq_of_lt haddress]

theorem get_load {start : UInt64} {image : List UInt8} {address : Nat}
    (hfit : start.toNat + image.length ≤ memory.size) (haddress : address < memory.size) :
    (memory.load start image).get address =
      if start.toNat ≤ address then image[address - start.toNat]?.getD (memory.get address)
      else memory.get address := by
  induction image generalizing memory start with
  | nil => simp [load]
  | cons byte rest ih =>
    rw [List.length_cons] at hfit
    have hlt : start.toNat < memory.size := by omega
    have hnext : (start + 1).toNat = start.toNat + 1 := by
      have hspace : memory.size ≤ 65536 := memory.size_le
      rw [UInt64.toNat_add]
      exact Nat.mod_eq_of_lt (by show _ + 1 < 2 ^ 64; omega)
    have hrest : ((memory.set start.toNat byte).load (start + 1) rest).get address = _ :=
      ih (by rw [hnext, size_set]; omega) (by rwa [size_set])
    rw [load, hrest, hnext, get_set_of_lt hlt haddress]
    rcases Nat.lt_trichotomy start.toNat address with hbehind | rfl | hbefore
    · obtain ⟨k, rfl⟩ : ∃ k, address = start.toNat + 1 + k :=
        Nat.exists_eq_add_of_le hbehind
      have hoffset : start.toNat + 1 + k - start.toNat = k + 1 := by omega
      rw [if_pos (by omega), if_neg (by omega), if_pos (by omega), hoffset, Nat.add_sub_cancel_left]
      rfl
    · rw [if_neg (by omega), if_pos rfl, if_pos (Nat.le_refl _), Nat.sub_self]
      rfl
    · rw [if_neg (by omega), if_neg (by omega), if_neg (by omega)]

/-- **Loading everything.** -/
theorem load_data (h : memory.size = other.size) : memory.load 0 other.data.toList = other := by
  apply eq_of_get (by rw [size_load, h])
  intro address haddress
  have hlength : other.data.toList.length = other.size := by rw [Array.length_toList, size]
  rw [get_load (by rw [hlength, h]; exact Nat.le_of_eq (Nat.zero_add _)) (by rwa [h])]
  show other.data.toList[address]?.getD _ = _
  rw [← map_get_range, List.getElem?_map, List.getElem?_range haddress]
  rfl

theorem create_size (memory : Memory) :
    create memory.size = .ok (zeros memory.size memory.size_pos memory.size_le) :=
  dif_pos ⟨memory.size_pos, memory.size_le⟩

end Mos6502.Memory

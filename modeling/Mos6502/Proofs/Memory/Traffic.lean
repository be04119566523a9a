import Mos6502.Memory.Recorded
import Mos6502.Memory.WriteProtected
import Mos6502.Proofs.Addressing.Wrapping

/-!
# Traffic on a bus

What an action does on its bus, as the list of its accesses. Nothing is asked of the bus but that
it has a size: it may ignore writes, it may answer a read with any byte, and it may answer otherwise
the next time. So the addresses of a list depend on the bytes that earlier reads have given.

**Actions** (`Makes`). An action makes accesses of a certain form if a recorded bus shows them,
behind those that it has shown before and in this order. The accesses of two actions in a row are
those of the first and then those of the second (`Makes.bind`).

Main result of this part: `AddressingMode.makes_locate`, the accesses by which an operand is found.
-/

namespace Mos6502

/-- A bus whose size does not change by its use. -/
class FixedSizeBus (β : Type) [Bus β] : Prop where
  size_read (bus : β) (address : Nat) :
    Bus.size ((Bus.read address).run bus).2 = Bus.size bus
  size_write (bus : β) (address : Nat) (value : UInt8) :
    Bus.size ((Bus.write address value).run bus).2 = Bus.size bus

/-! ## Buses of fixed size -/

instance : FixedSizeBus Memory where
  size_read _ _ := rfl
  size_write memory address value := memory.size_set address value

instance {β : Type} [Bus β] [FixedSizeBus β] : FixedSizeBus (Recorded β) where
  size_read recorded := FixedSizeBus.size_read recorded.bus
  size_write recorded := FixedSizeBus.size_write recorded.bus

instance {β : Type} [Bus β] [FixedSizeBus β] : FixedSizeBus (WriteProtected β) where
  size_read chip := FixedSizeBus.size_read chip.bus
  size_write chip address value := by
    show Bus.size (if chip.protects address then ((), chip) else _ : Unit × WriteProtected β).2 = _
    split
    · rfl
    · exact FixedSizeBus.size_write chip.bus address value

/-! ## Lists of accesses -/

/-- Reads at addresses in a row, with the bytes that they gave. -/
def readsFrom (start : Nat) : List UInt8 → List Access
  | [] => []
  | byte :: rest => .read start byte :: readsFrom (start + 1) rest

@[simp]
theorem length_readsFrom (start : Nat) (bytes : List UInt8) :
    (readsFrom start bytes).length = bytes.length := by
  induction bytes generalizing start with
  | nil => rfl
  | cons byte rest ih => simp [readsFrom, ih]

/-- Whether an access is a read. -/
def Access.isRead : Access → Bool
  | read .. => true
  | write .. => false

theorem isRead_of_mem_readsFrom {start : Nat} {bytes : List UInt8} {access : Access}
    (h : access ∈ readsFrom start bytes) : access.isRead := by
  induction bytes generalizing start with
  | nil => cases h
  | cons byte rest ih =>
    rcases List.mem_cons.mp h with rfl | h
    · rfl
    · exact ih h

/-- Reads only, or reads and then one write to a cell of a memory of `size` bytes. -/
def WritesLast (size : Nat) (accesses : List Access) : Prop :=
  ∃ reads : List Access, (∀ access ∈ reads, access.isRead) ∧ (accesses = reads ∨
    ∃ (address : Nat) (value : UInt8), address < size ∧
      accesses = reads ++ [.write address value])

namespace WritesLast

variable {size : Nat} {accesses reads : List Access}

theorem of_reads (h : ∀ access ∈ reads, access.isRead) : WritesLast size reads :=
  ⟨reads, h, .inl rfl⟩

theorem of_write {address : Nat} (h : address < size) (value : UInt8) :
    WritesLast size [.write address value] :=
  ⟨[], by simp, .inr ⟨address, value, h, rfl⟩⟩

/-- Reads in front change nothing. -/
theorem reads_append (hreads : ∀ access ∈ reads, access.isRead) (h : WritesLast size accesses) :
    WritesLast size (reads ++ accesses) := by
  obtain ⟨others, hothers, hshape⟩ := h
  refine ⟨reads ++ others, List.forall_mem_append.mpr ⟨hreads, hothers⟩, ?_⟩
  rcases hshape with rfl | ⟨address, value, hlt, rfl⟩
  · exact .inl rfl
  · exact .inr ⟨address, value, hlt, (List.append_assoc ..).symm⟩

end WritesLast

/-! ## Actions -/

/-- From a state with `before`, an action comes to one with `after`, by accesses which together with
its result are as `made` says. -/
def Makes {β σ α : Type} (bus : σ → Recorded β) (before : σ → Prop) (action : StateM σ α)
    (after : σ → Prop) (made : List Access → α → Prop) : Prop :=
  ∀ state, before state → ∃ accesses : List Access,
    (bus (action.run state).2).accesses.toList = (bus state).accesses.toList ++ accesses ∧
    after (action.run state).2 ∧ made accesses (action.run state).1

namespace Makes

variable {β σ α γ : Type} {bus : σ → Recorded β} {before after after' : σ → Prop}
  {action : StateM σ α} {made : List Access → α → Prop}

theorem pure (value : α) :
    Makes bus before (Pure.pure value) before fun accesses result =>
      accesses = [] ∧ result = value :=
  fun _ h => ⟨[], (List.append_nil _).symm, h, rfl, rfl⟩

theorem bind {next : α → StateM σ γ} {made' : List Access → γ → Prop}
    (h : Makes bus before action after made)
    (hnext : ∀ accesses value, made accesses value →
      Makes bus after (next value) after' fun later => made' (accesses ++ later)) :
    Makes bus before (action >>= next) after' made' := by
  intro state hbefore
  obtain ⟨accesses, hlist, hafter, hmade⟩ := h state hbefore
  obtain ⟨later, hlist', hafter', hmade'⟩ := hnext accesses _ hmade _ hafter
  refine ⟨accesses ++ later, ?_, hafter', hmade'⟩
  rw [← List.append_assoc, ← hlist]
  exact hlist'

/-- An action that looks at the state first. -/
theorem get_bind {next : σ → StateM σ γ} {made : List Access → γ → Prop}
    (h : ∀ state, before state → Makes bus before (next state) after made) :
    Makes bus before (get >>= next) after made :=
  fun state hbefore => h state hbefore state hbefore

theorem mono {before' : σ → Prop} {made' : List Access → α → Prop}
    (h : Makes bus before action after made) (hbefore : ∀ state, before' state → before state)
    (hmade : ∀ accesses value, made accesses value → made' accesses value) :
    Makes bus before' action after made' := by
  intro state hstate
  obtain ⟨accesses, hlist, hafter, hvalue⟩ := h state (hbefore state hstate)
  exact ⟨accesses, hlist, hafter, hmade _ _ hvalue⟩

/-- An action that does not use the bus. -/
theorem quiet (h : ∀ state, bus (action.run state).2 = bus state)
    (hafter : ∀ state, before state → after (action.run state).2) :
    Makes bus before action after fun accesses _ => accesses = [] :=
  fun state hbefore => ⟨[], by rw [h, List.append_nil], hafter state hbefore, rfl⟩

/-- Reads at addresses in a row. -/
theorem mapM_range' {read : Nat → StateM σ UInt8} {base : Nat}
    (h : ∀ k, Makes bus before (read k) before fun accesses byte =>
      accesses = [.read (base + k) byte]) (start n : Nat) :
    Makes bus before ((List.range' start n).mapM read) before fun accesses bytes =>
      bytes.length = n ∧ accesses = readsFrom (base + start) bytes := by
  induction n generalizing start with
  | zero =>
    refine (pure []).mono (fun _ => id) ?_
    rintro accesses bytes ⟨rfl, rfl⟩
    exact ⟨rfl, rfl⟩
  | succ n ih =>
    rw [List.range'_succ, List.mapM_cons]
    refine (h start).bind fun accesses byte haccesses => ?_
    refine (ih (start + 1)).bind fun later bytes hlater => ?_
    refine (pure (byte :: bytes)).mono (fun _ => id) ?_
    rintro _ _ ⟨rfl, rfl⟩
    obtain ⟨rfl, rfl⟩ := hlater
    subst haccesses
    exact ⟨rfl, by simp [readsFrom, Nat.add_assoc]⟩

end Makes

/-! ## Buses -/

variable {β : Type} [Bus β] [FixedSizeBus β]

namespace Recorded

/-- The bus has `size` cells. -/
def Sized (size : Nat) (recorded : Recorded β) : Prop :=
  Bus.size recorded = size

end Recorded

open Recorded

namespace Bus

variable (size : Nat)

theorem makes_read (address : Nat) :
    Makes (β := β) id (Sized size) (read address) (Sized size) fun accesses value =>
      accesses = [.read address value] := by
  intro recorded hsize
  refine ⟨[.read address ((read address).run recorded).1], ?_, ?_, rfl⟩
  · exact Array.toList_push ..
  · exact (FixedSizeBus.size_read recorded address).trans hsize

theorem makes_write (address : Nat) (value : UInt8) :
    Makes (β := β) id (Sized size) (write address value) (Sized size) fun accesses _ =>
      accesses = [.write address value] := by
  intro recorded hsize
  refine ⟨[.write address value], ?_, ?_, rfl⟩
  · exact Array.toList_push ..
  · exact (FixedSizeBus.size_write recorded address value).trans hsize

/-- Reading everything. -/
theorem makes_readAll :
    Makes (β := β) id (Sized size) readAll (Sized size) fun accesses bytes =>
      bytes.length = size ∧ accesses = readsFrom 0 bytes := by
  refine Makes.get_bind fun recorded hsize => ?_
  rw [hsize, List.range_eq_range']
  refine Makes.mapM_range' (fun k => ?_) 0 size
  rw [Nat.zero_add]
  exact makes_read size k

end Bus

/-! ## Finding an operand -/

namespace AddressingMode

/-- The accesses by which the operand of the instruction at `pc` is found. -/
def lookups (mode : AddressingMode) (pc : Nat) (bytes : OperandBytes) : List Access :=
  match mode with
  | implied | accumulator | immediate => []
  | zeroPage | zeroPageX | indirectX => readsFrom (pc + 1) [bytes.low]
  | absolute | absoluteX | absoluteY => readsFrom (pc + 1) [bytes.low, bytes.high]
  | indirectY => readsFrom (pc + 1) [bytes.low] ++
      [.read bytes.low.toNat bytes.pointerLow,
        .read ((bytes.low.toNat + 1) % 256) bytes.pointerHigh]

theorem isRead_of_mem_lookups {mode : AddressingMode} {pc : Nat} {bytes : OperandBytes}
    {access : Access} (h : access ∈ mode.lookups pc bytes) : access.isRead := by
  cases mode with
  | implied | accumulator | immediate => cases h
  | zeroPage | zeroPageX | indirectX | absolute | absoluteX | absoluteY =>
    exact isRead_of_mem_readsFrom h
  | indirectY =>
    rcases List.mem_append.mp h with h | h
    · exact isRead_of_mem_readsFrom h
    · simp only [List.mem_cons, List.not_mem_nil, or_false] at h
      rcases h with rfl | rfl <;> rfl

theorem length_lookups_le (mode : AddressingMode) (pc : Nat) (bytes : OperandBytes) :
    (mode.lookups pc bytes).length ≤ 3 := by
  cases mode <;> simp [lookups]

variable (size : Nat)

omit [FixedSizeBus β] in
theorem makes_inMemory (address : Nat) :
    Makes (β := β) id (Sized size) (inMemory address) (Sized size) fun accesses operand =>
      accesses = [] ∧ operand = .address (address % size) :=
  Makes.get_bind fun recorded hsize => by
    unfold Bus.reduce
    rw [hsize]
    exact .pure _

theorem makes_absoluteAddress (pc : UInt16) :
    Makes (β := β) id (Sized size) (absoluteAddress pc) (Sized size) fun accesses address =>
      ∃ low high : UInt8, accesses = readsFrom (pc.toNat + 1) [low, high] ∧
        address.toNat = low.toNat + 256 * high.toNat := by
  refine (Bus.makes_read size _).bind fun _ low hlow => ?_
  refine (Bus.makes_read size _).bind fun _ high hhigh => ?_
  refine (Makes.pure _).mono (fun _ => id) ?_
  rintro _ _ ⟨rfl, rfl⟩
  subst hlow hhigh
  exact ⟨low, high, rfl, toNat_littleEndian low high⟩

theorem makes_zeroPagePointer (address : UInt8) :
    Makes (β := β) id (Sized size) (zeroPagePointer address) (Sized size) fun accesses pointer =>
      ∃ low high : UInt8,
        accesses = [.read address.toNat low, .read ((address.toNat + 1) % 256) high] ∧
        pointer.toNat = low.toNat + 256 * high.toNat := by
  refine (Bus.makes_read size _).bind fun _ low hlow => ?_
  refine (Bus.makes_read size _).bind fun _ high hhigh => ?_
  refine (Makes.pure _).mono (fun _ => id) ?_
  rintro _ _ ⟨rfl, rfl⟩
  rw [show (address + 1).toNat = (address.toNat + 1) % 256 from UInt8.toNat_add address 1] at hhigh
  subst hlow hhigh
  exact ⟨low, high, rfl, toNat_littleEndian low high⟩

/-- **The accesses that find an operand**, and the operand from the bytes that they give. -/
theorem makes_locate (mode : AddressingMode) (regs : Registers) :
    Makes (β := β) id (Sized size) (mode.locate regs) (Sized size) fun accesses operand =>
      ∃ bytes : OperandBytes, accesses = mode.lookups regs.pc.toNat bytes ∧
        operand = mode.operandFrom regs size bytes := by
  cases mode with
  | implied | accumulator =>
    refine (Makes.pure _).mono (fun _ => id) ?_
    rintro _ _ ⟨rfl, rfl⟩
    exact ⟨⟨0, 0, 0, 0⟩, rfl, rfl⟩
  | immediate =>
    refine (makes_inMemory size _).mono (fun _ => id) ?_
    rintro _ _ ⟨rfl, rfl⟩
    exact ⟨⟨0, 0, 0, 0⟩, rfl, rfl⟩
  | zeroPage =>
    refine (Bus.makes_read size _).bind fun _ low hlow => ?_
    refine (makes_inMemory size _).mono (fun _ => id) ?_
    rintro _ _ ⟨rfl, rfl⟩
    subst hlow
    exact ⟨⟨low, 0, 0, 0⟩, rfl, rfl⟩
  | zeroPageX | indirectX =>
    refine (Bus.makes_read size _).bind fun _ low hlow => ?_
    refine (makes_inMemory size _).mono (fun _ => id) ?_
    rintro _ _ ⟨rfl, rfl⟩
    subst hlow
    exact ⟨⟨low, 0, 0, 0⟩, rfl, by rw [UInt8.toNat_add]; rfl⟩
  | absolute | absoluteX | absoluteY =>
    refine (makes_absoluteAddress size _).bind fun _ address haddress => ?_
    obtain ⟨low, high, rfl, hvalue⟩ := haddress
    refine (makes_inMemory size _).mono (fun _ => id) ?_
    rintro _ _ ⟨rfl, rfl⟩
    exact ⟨⟨low, high, 0, 0⟩, List.append_nil _, by rw [hvalue]; rfl⟩
  | indirectY =>
    refine (Bus.makes_read size _).bind fun _ low hlow => ?_
    refine (makes_zeroPagePointer size _).bind fun _ pointer hpointer => ?_
    obtain ⟨pointerLow, pointerHigh, rfl, hvalue⟩ := hpointer
    refine (makes_inMemory size _).mono (fun _ => id) ?_
    rintro _ _ ⟨rfl, rfl⟩
    subst hlow
    exact ⟨⟨low, 0, pointerLow, pointerHigh⟩, rfl, by rw [hvalue]; rfl⟩

end AddressingMode

end Mos6502

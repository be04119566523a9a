import Mos6502.Hexadecimal

/-!
# Reading texts

Readers take what they read off the beginning of a text and leave the rest.

**Numerals** (`Spelled`). A numeral is read as far as its digits go, so it is read back if the text
goes on with something else. Leading zeros do no harm. Numbers are spelled in hexadecimal with
capital letters (`spelled_hexadecimal`) and in decimal (`spelled_decimal`).

**Repetitions** (`run_many`). What was written one after another is read back one after another, up
to where the reader of a single thing fails.
-/

namespace Mos6502

/-- Takes a value off the beginning of a text. -/
abbrev TextReader : Type → Type :=
  StateT (List Char) Option

/-! ## Numerals -/

/-- The value of a digit in a base up to sixteen, with capital letters above nine. -/
def digitValue (base : Nat) (c : Char) : Option Nat :=
  (List.range base).find? fun d => d.digitChar.toUpper = c

/-- The value of the digits of a numeral, most significant first. -/
def numeralValue (base : Nat) (digits : List Char) : Nat :=
  digits.foldl (fun value c => value * base + (digitValue base c).getD 0) 0

/-- The characters are digits, at least one, and their value is `n`. -/
structure Spelled (base : Nat) (digits : List Char) (n : Nat) : Prop where
  ne_nil : digits ≠ []
  isDigit : ∀ c ∈ digits, (digitValue base c).isSome
  value : numeralValue base digits = n

section Spelling

variable {base : Nat} {f : Char → Char}

theorem numeralValue_concat (digits : List Char) {c : Char} {d : Nat}
    (h : digitValue base c = some d) :
    numeralValue base (digits ++ [c]) = numeralValue base digits * base + d := by
  simp [numeralValue, h]

/-- Digits that have their values in any form have the value of the number together. -/
theorem spelled_map_toDigits (hbase : 1 < base)
    (hf : ∀ d < base, digitValue base (f d.digitChar) = some d) (n : Nat) :
    Spelled base ((Nat.toDigits base n).map f) n := by
  induction n using Nat.base_induction base hbase with
  | single m hm =>
    rw [Nat.toDigits_of_lt_base hm]
    refine ⟨by simp, by simp [hf m hm], ?_⟩
    simp [numeralValue, hf m hm]
  | digit m k hk hm ih =>
    rw [← Nat.toDigits_append_toDigits hbase hm hk, Nat.toDigits_of_lt_base hk, List.map_append,
      List.map_singleton]
    refine ⟨by simp, ?_, ?_⟩
    · intro c hc
      rcases List.mem_append.mp hc with hc | hc
      · exact ih.isDigit c hc
      · rw [List.mem_singleton.mp hc, hf k hk]
        rfl
    · rw [numeralValue_concat _ (hf k hk), ih.value, Nat.mul_comm]

theorem numeralValue_zeros_append (count : Nat) (digits : List Char)
    (hzero : digitValue base '0' = some 0) :
    numeralValue base (List.replicate count '0' ++ digits) = numeralValue base digits := by
  induction count with
  | zero => rfl
  | succ count ih => simpa [numeralValue, List.replicate_succ, hzero] using ih

/-- Leading zeros do no harm. -/
theorem Spelled.leftpad {digits : List Char} {n : Nat} (h : Spelled base digits n) (width : Nat)
    (hzero : digitValue base '0' = some 0) : Spelled base (digits.leftpad width '0') n := by
  unfold List.leftpad
  refine ⟨by simp [h.ne_nil], ?_, ?_⟩
  · intro c hc
    rcases List.mem_append.mp hc with hc | hc
    · rw [List.eq_of_mem_replicate hc, hzero]
      rfl
    · exact h.isDigit c hc
  · rw [numeralValue_zeros_append _ _ hzero, h.value]

end Spelling

theorem spelled_hexadecimal (width n : Nat) : Spelled 16 (Hexadecimal.digits width n) n :=
  (spelled_map_toDigits (by decide) (by decide) n).leftpad width (by decide)

theorem spelled_decimal (n : Nat) : Spelled 10 (Nat.toDigits 10 n) n := by
  have h := @spelled_map_toDigits 10 id (by decide) (by decide) n
  rwa [List.map_id] at h

/-- No digit of a numeral is something else. -/
theorem Spelled.not_mem {base n : Nat} {digits : List Char} (h : Spelled base digits n) {c : Char}
    (hc : digitValue base c = none) : c ∉ digits := by
  intro hmem
  have hdigit := h.isDigit c hmem
  rw [hc] at hdigit
  cases hdigit

/-! ## Readers -/

namespace TextReader

variable {α γ : Type}

theorem run_bind_of_eq_some {reader : TextReader α} {next : α → TextReader γ}
    {text rest : List Char} {value : α} (h : reader.run text = some (value, rest)) :
    (reader >>= next).run text = (next value).run rest := by
  rw [StateT.run_bind, h]
  rfl

theorem run_bind_of_eq_none {reader : TextReader α} {next : α → TextReader γ}
    {text : List Char} (h : reader.run text = none) : (reader >>= next).run text = none := by
  rw [StateT.run_bind, h]
  rfl

/-- Take off a given text. -/
def literal (expected : String) : TextReader Unit := fun text =>
  if expected.toList <+: text then some ((), text.drop expected.toList.length) else none

theorem run_literal (expected : String) (rest : List Char) :
    (literal expected).run (expected.toList ++ rest) = some ((), rest) := by
  show (if expected.toList <+: expected.toList ++ rest then some _ else none) = _
  rw [if_pos (List.prefix_append _ _), List.drop_left]

/-- Take off so many characters, whatever they are. -/
def skip (count : Nat) : TextReader Unit := fun text =>
  some ((), text.drop count)

theorem run_skip {skipped : List Char} {count : Nat} (h : skipped.length = count)
    (rest : List Char) : (skip count).run (skipped ++ rest) = some ((), rest) := by
  show some ((), (skipped ++ rest).drop count) = _
  rw [List.drop_left' h]

/-- Take off a numeral, as far as its digits go. -/
def numeral (base : Nat) : TextReader Nat := fun text =>
  let digits := text.takeWhile fun c => (digitValue base c).isSome
  if digits = [] then
    none
  else
    some (numeralValue base digits, text.dropWhile fun c => (digitValue base c).isSome)

/-- The text does not go on with a digit. -/
def Stops (base : Nat) (text : List Char) : Prop :=
  ∀ c ∈ text.head?, digitValue base c = none

theorem stops_nil (base : Nat) : Stops base [] := by
  rintro c ⟨⟩

/-- A text that begins with something else than a digit. -/
theorem stops_append {base : Nat} (behind : String)
    (h : behind.toList.head?.map (digitValue base) = some none) (more : List Char) :
    Stops base (behind.toList ++ more) := by
  intro c hc
  cases htext : behind.toList with
  | nil => simp [htext] at h
  | cons first others =>
    rw [htext] at h hc
    obtain rfl : first = c := Option.some.inj hc
    simpa using h

theorem takeWhile_of_stops {base : Nat} {text : List Char} (h : Stops base text) :
    (text.takeWhile fun c => (digitValue base c).isSome) = [] := by
  cases text with
  | nil => rfl
  | cons c cs => simp [h c rfl]

theorem dropWhile_of_stops {base : Nat} {text : List Char} (h : Stops base text) :
    (text.dropWhile fun c => (digitValue base c).isSome) = text := by
  cases text with
  | nil => rfl
  | cons c cs => simp [h c rfl]

theorem run_numeral_of_stops {base : Nat} {text : List Char} (h : Stops base text) :
    (numeral base).run text = none := by
  show (if (text.takeWhile fun c => (digitValue base c).isSome) = [] then none else some _) = none
  rw [if_pos (takeWhile_of_stops h)]

theorem run_numeral {base n : Nat} {digits rest : List Char} (h : Spelled base digits n)
    (hstops : Stops base rest) : (numeral base).run (digits ++ rest) = some (n, rest) := by
  show (if ((digits ++ rest).takeWhile fun c => (digitValue base c).isSome) = [] then none
    else some _) = _
  rw [List.takeWhile_append_of_pos h.isDigit, List.dropWhile_append_of_pos h.isDigit,
    takeWhile_of_stops hstops, dropWhile_of_stops hstops, List.append_nil, if_neg h.ne_nil, h.value]

/-- A name and a numeral. -/
def field (base : Nat) (name : String) : TextReader Nat := do
  literal name
  numeral base

theorem run_field {base n : Nat} (name : String) {digits rest : List Char}
    (h : Spelled base digits n) (hstops : Stops base rest) :
    (field base name).run (name.toList ++ (digits ++ rest)) = some (n, rest) :=
  (run_bind_of_eq_some (run_literal name _)).trans (run_numeral h hstops)

/-! ## Repetitions -/

/-- At most `limit` times what `item` takes off, as long as it does. -/
def manyUpTo (item : TextReader α) : (limit : Nat) → TextReader (List α)
  | 0 => fun text => some ([], text)
  | limit + 1 => fun text =>
    match item.run text with
    | none => some ([], text)
    | some (value, text) => ((manyUpTo item limit).run text).map fun p => (value :: p.1, p.2)

theorem run_manyUpTo_of_none {item : TextReader α} {text : List Char}
    (h : item.run text = none) (limit : Nat) :
    (manyUpTo item limit).run text = some ([], text) := by
  cases limit with
  | zero => rfl
  | succ limit =>
    simp only [StateT.run] at h
    simp only [manyUpTo, StateT.run, h]

theorem run_manyUpTo_of_some {item : TextReader α} {text rest : List Char} {value : α}
    (h : item.run text = some (value, rest)) (limit : Nat) :
    (manyUpTo item (limit + 1)).run text =
      ((manyUpTo item limit).run rest).map fun p => (value :: p.1, p.2) := by
  simp only [StateT.run] at h
  simp only [manyUpTo, StateT.run, h]

/-- What `item` takes off, again and again. A text has no more items than characters. -/
def many (item : TextReader α) : TextReader (List α) := fun text =>
  (manyUpTo item text.length).run text

section Written

variable {item : TextReader α} {written : α → List Char} {Follow : List Char → Prop}

theorem run_manyUpTo
    (hitem : ∀ value more, Follow more → item.run (written value ++ more) = some (value, more))
    (hfollow : ∀ value more, Follow (written value ++ more)) (values : List α) {rest : List Char}
    (hrest : Follow rest) (hend : item.run rest = none) (limit : Nat)
    (hlimit : values.length ≤ limit) :
    (manyUpTo item limit).run (values.flatMap written ++ rest) = some (values, rest) := by
  induction values generalizing limit with
  | nil => exact run_manyUpTo_of_none hend limit
  | cons value values ih =>
    obtain ⟨limit, rfl⟩ := Nat.exists_eq_add_one.mpr (Nat.lt_of_lt_of_le (Nat.succ_pos _) hlimit)
    have hmore : Follow (values.flatMap written ++ rest) := by
      cases values with
      | nil => exact hrest
      | cons next others =>
        rw [List.flatMap_cons, List.append_assoc]
        exact hfollow next _
    rw [List.flatMap_cons, List.append_assoc, run_manyUpTo_of_some (hitem value _ hmore),
      ih limit (Nat.le_of_succ_le_succ hlimit)]
    rfl

theorem length_le_length_flatMap (hwritten : ∀ value, written value ≠ []) (values : List α) :
    values.length ≤ (values.flatMap written).length := by
  induction values with
  | nil => exact Nat.le_refl 0
  | cons value values ih =>
    have hpos := List.length_pos_iff.mpr (hwritten value)
    simp only [List.length_cons, List.flatMap_cons, List.length_append]
    omega

/-- **Things written one after another** are read back, if each of them is, whatever comes behind
it. -/
theorem run_many
    (hitem : ∀ value more, Follow more → item.run (written value ++ more) = some (value, more))
    (hfollow : ∀ value more, Follow (written value ++ more))
    (hwritten : ∀ value, written value ≠ []) (values : List α) {rest : List Char}
    (hrest : Follow rest) (hend : item.run rest = none) :
    (many item).run (values.flatMap written ++ rest) = some (values, rest) := by
  refine run_manyUpTo hitem hfollow values hrest hend _ ?_
  have hlength := length_le_length_flatMap hwritten values
  rw [List.length_append]
  omega

end Written

end TextReader

end Mos6502

import Mathlib
import RayTracer.Proofs.Text.Ascii
import RayTracer.Text.Numeral

/-! The grammar of numerals, stated by how a numeral is put together and compared with the readers, which
take one apart. A reader accepts exactly the texts of the grammar and gives the number that they write. -/

namespace RayTracer.Text

def AllDigits (text : List Char) : Prop := ∀ c ∈ text, c.isDigit = true

theorem AllDigits.isAscii {text : List Char} (h : AllDigits text) : IsAscii text := by
  intro c hMem
  have hDigit := h c hMem
  simp only [Char.isDigit, Bool.and_eq_true, decide_eq_true_eq, UInt32.le_iff_toNat_le] at hDigit
  exact Nat.lt_of_le_of_lt hDigit.2 (by decide)

theorem all_isDigit_iff {text : List Char} : text.all Char.isDigit = true ↔ AllDigits text :=
  List.all_eq_true

/-- The value of digits is the one they have to the base ten. -/
theorem digitsValue_eq (digits : List Char) : digitsValue digits = Nat.ofDigitChars 10 digits 0 := by
  rw [Nat.ofDigitChars_eq_foldl, digitsValue]
  congr 1
  funext n c
  rw [Nat.mul_comm]
  rfl

/-- The texts that write a count: at least one digit, behind a plus sign or without one. -/
inductive WritesCount : List Char → Nat → Prop
  | bare {digits : List Char} (hSome : digits ≠ []) (hDigits : AllDigits digits) :
      WritesCount digits (Nat.ofDigitChars 10 digits 0)
  | plus {digits : List Char} (hSome : digits ≠ []) (hDigits : AllDigits digits) :
      WritesCount ('+' :: digits) (Nat.ofDigitChars 10 digits 0)

/-- There is no sign to drop before digits. -/
theorem dropPlus_of_allDigits {digits : List Char} (hDigits : AllDigits digits) :
    dropPlus digits = digits := by
  cases digits with
  | nil => rfl
  | cons c rest =>
      have hHead : c.isDigit = true := hDigits c List.mem_cons_self
      have hPlus : c ≠ '+' := by
        rintro rfl
        exact absurd hHead (by decide)
      unfold dropPlus
      split
      next hEq => exact absurd (List.cons.inj hEq).1 hPlus
      next => rfl

/-- At most one sign is dropped. -/
theorem dropPlus_eq_or (text : List Char) : text = dropPlus text ∨ text = '+' :: dropPlus text := by
  unfold dropPlus
  split
  next => exact Or.inr rfl
  next => exact Or.inl rfl

/-- A count is read where one below the limit is written, and nowhere else. -/
theorem readCount?_eq_some_iff {limit n : Nat} {text : List Char} :
    readCount? limit text = some n ↔ WritesCount text n ∧ n < limit := by
  constructor
  · intro hRead
    simp only [readCount?, digitsValue_eq, Bool.and_eq_true, decide_eq_true_eq, all_isDigit_iff,
      Option.ite_none_right_eq_some, Option.some.injEq] at hRead
    obtain ⟨⟨⟨hSome, hDigits⟩, hLimit⟩, rfl⟩ := hRead
    refine ⟨?_, hLimit⟩
    have hPlus := dropPlus_eq_or text
    generalize dropPlus text = digits at hSome hDigits hPlus ⊢
    rcases hPlus with rfl | rfl
    · exact WritesCount.bare hSome hDigits
    · exact WritesCount.plus hSome hDigits
  · rintro ⟨hWrites, hLimit⟩
    have hDigits : ∃ digits, dropPlus text = digits ∧ digits ≠ [] ∧ AllDigits digits ∧
        n = Nat.ofDigitChars 10 digits 0 := by
      cases hWrites with
      | bare hSome hDigits => exact ⟨_, dropPlus_of_allDigits hDigits, hSome, hDigits, rfl⟩
      | plus hSome hDigits => exact ⟨_, rfl, hSome, hDigits, rfl⟩
    obtain ⟨digits, hDrop, hSome, hAll, rfl⟩ := hDigits
    simp only [readCount?, hDrop, digitsValue_eq, Bool.and_eq_true, decide_eq_true_eq,
      all_isDigit_iff, Option.ite_none_right_eq_some]
    exact ⟨⟨⟨hSome, hAll⟩, hLimit⟩, trivial⟩

/-- The digits of a count write it. -/
theorem writesCount_toDigits (n : Nat) : WritesCount (Nat.toDigits 10 n) n := by
  have hWrites : WritesCount (Nat.toDigits 10 n) (Nat.ofDigitChars 10 (Nat.toDigits 10 n) 0) :=
    WritesCount.bare Nat.toDigits_ne_nil
      fun _ hMem => Nat.isDigit_of_mem_toDigits (by decide) (by decide) hMem
  rwa [Nat.ofDigitChars_ten_toDigits] at hWrites

/-- Counts are written in characters of one byte. -/
theorem WritesCount.isAscii {text : List Char} {n : Nat} (h : WritesCount text n) : IsAscii text := by
  cases h with
  | bare hSome hDigits => exact hDigits.isAscii
  | plus hSome hDigits => exact isAscii_cons.mpr ⟨by decide, hDigits.isAscii⟩

/-- A numeral has no place for other characters, such as a space. -/
theorem WritesCount.not_mem {text : List Char} {n : Nat} (h : WritesCount text n) {c : Char}
    (hDigit : c.isDigit = false) (hPlus : c ≠ '+') : c ∉ text := by
  have hNone {digits : List Char} (hDigits : AllDigits digits) : c ∉ digits := by
    intro hMem
    rw [hDigits c hMem] at hDigit
    cases hDigit
  cases h with
  | bare hSome hDigits => exact hNone hDigits
  | plus hSome hDigits =>
      rw [List.mem_cons, not_or]
      exact ⟨hPlus, hNone hDigits⟩

end RayTracer.Text

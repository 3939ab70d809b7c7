import Mathlib.Data.List.Basic
import Mathlib.Data.UInt

/-!
# Decimal numerals

Decimal digits, at least one, after at most one plus sign. This is what common number parsers accept
for an unsigned type, up to the largest value of the type. Leading zeros are allowed, so a number
has many numerals.

## Main results

* `Numeral.parse_eq_some_iff` — the reader against the grammar
* `isNumeral_toDigits` — the usual decimal notation is a numeral
-/

/-- The text is a decimal numeral with this value. -/
def IsNumeral (s : List Char) (n : ℕ) : Prop :=
  ∃ digits, (s = digits ∨ s = '+' :: digits) ∧ digits ≠ [] ∧ (∀ c ∈ digits, c.isDigit = true) ∧
    Nat.ofDigitChars 10 digits 0 = n

namespace Numeral

/-- Read a numeral. -/
def parse (s : List Char) : Option ℕ :=
  let digits := if s.head? = some '+' then s.tail else s
  if digits ≠ [] ∧ digits.all Char.isDigit then some (Nat.ofDigitChars 10 digits 0) else none

theorem parse_digits {digits : List Char} (hne : digits ≠ [])
    (hdigits : ∀ c ∈ digits, c.isDigit = true) :
    parse digits = some (Nat.ofDigitChars 10 digits 0) := by
  have hplus : digits.head? ≠ some '+' := by
    intro h
    have hdigit := hdigits _ (List.mem_of_mem_head? h)
    exact absurd hdigit (by decide)
  rw [parse, if_neg hplus, if_pos ⟨hne, List.all_eq_true.mpr hdigits⟩]

/-- **The reader against the grammar.** -/
theorem parse_eq_some_iff {s : List Char} {n : ℕ} : parse s = some n ↔ IsNumeral s n := by
  constructor
  · intro h
    have hsplit : s = (if s.head? = some '+' then s.tail else s) ∨
        s = '+' :: (if s.head? = some '+' then s.tail else s) := by
      by_cases hplus : s.head? = some '+'
      · rw [if_pos hplus]
        exact Or.inr (List.cons_head?_tail hplus).symm
      · rw [if_neg hplus]
        exact Or.inl rfl
    rw [parse] at h
    generalize (if s.head? = some '+' then s.tail else s) = digits at h hsplit
    obtain ⟨⟨hne, hdigits⟩, hval⟩ := Option.ite_none_right_eq_some.mp h
    exact ⟨digits, hsplit, hne, List.all_eq_true.mp hdigits, Option.some.inj hval⟩
  · rintro ⟨digits, rfl | rfl, hne, hdigits, rfl⟩
    · exact parse_digits hne hdigits
    · rw [parse, List.head?_cons, if_pos rfl, List.tail_cons,
        if_pos ⟨hne, List.all_eq_true.mpr hdigits⟩]

end Numeral

theorem IsNumeral.ne_nil {s : List Char} {n : ℕ} (h : IsNumeral s n) : s ≠ [] := by
  obtain ⟨digits, rfl | rfl, hne, -, -⟩ := h
  · exact hne
  · exact List.cons_ne_nil _ _

/-- A numeral is made of digits and perhaps a plus sign. -/
theorem IsNumeral.isDigit_or_eq {s : List Char} {n : ℕ} (h : IsNumeral s n) {c : Char}
    (hc : c ∈ s) : c.isDigit = true ∨ c = '+' := by
  obtain ⟨digits, rfl | rfl, -, hdigits, -⟩ := h
  · exact Or.inl (hdigits c hc)
  · rcases List.mem_cons.mp hc with rfl | hc
    · exact Or.inr rfl
    · exact Or.inl (hdigits c hc)

/-- **The usual decimal notation is a numeral.** -/
theorem isNumeral_toDigits (n : ℕ) : IsNumeral (Nat.toDigits 10 n) n :=
  ⟨_, Or.inl rfl, Nat.toDigits_ne_nil,
    fun _ hc => Nat.isDigit_of_mem_toDigits (by decide) (by decide) hc,
    Nat.ofDigitChars_ten_toDigits⟩

import Mathlib.Algebra.Group.Nat.Defs
import QuantumCompiler.Text.Numeral

/-!
# Numerals read back

Writing a number and reading the digits gives the number again. A numeral may
carry zeros in front, which do not count, and zeros at the end, each of which
multiplies by ten.
-/

namespace QuantumCompiler.Text

-- ---------------------------------------------------------------------------
-- What is written
-- ---------------------------------------------------------------------------

theorem numeral_ne_nil (n : Nat) : numeral n ≠ [] :=
  Nat.toDigits_ne_nil

theorem isDigit_of_mem_numeral {n : Nat} {c : Char} (h : c ∈ numeral n) : c.isDigit = true :=
  Nat.isDigit_of_mem_toDigits (by decide) (by decide) h

theorem isNumeral_iff {cs : List Char} :
    isNumeral cs = true ↔ cs ≠ [] ∧ ∀ c ∈ cs, c.isDigit = true := by
  simp [isNumeral]

theorem isNumeral_numeral (n : Nat) : isNumeral (numeral n) = true :=
  isNumeral_iff.mpr ⟨numeral_ne_nil n, fun _ => isDigit_of_mem_numeral⟩

-- ---------------------------------------------------------------------------
-- What is read
-- ---------------------------------------------------------------------------

theorem numeralValue_numeral (n : Nat) : numeralValue (numeral n) = n :=
  Nat.ofDigitChars_ten_toDigits

theorem numeral_injective {m n : Nat} (h : numeral m = numeral n) : m = n := by
  rw [← numeralValue_numeral m, h, numeralValue_numeral]

theorem numeralValue_append (as bs : List Char) :
    numeralValue (as ++ bs) = 10 ^ bs.length * numeralValue as + numeralValue bs := by
  rw [numeralValue, Nat.ofDigitChars_append, Nat.ofDigitChars_eq_ofDigitChars_zero, numeralValue,
    numeralValue]

theorem numeralValue_zeros (n : Nat) : numeralValue (List.replicate n '0') = 0 := by
  rw [numeralValue, Nat.ofDigitChars_replicate_zero, Nat.mul_zero]

/-- Zeros in front do not count. -/
theorem numeralValue_zeros_append (n : Nat) (cs : List Char) :
    numeralValue (List.replicate n '0' ++ cs) = numeralValue cs := by
  rw [numeralValue_append, numeralValue_zeros, Nat.mul_zero, Nat.zero_add]

/-- Zeros at the end multiply. -/
theorem numeralValue_append_zeros (n : Nat) (cs : List Char) :
    numeralValue (cs ++ List.replicate n '0') = 10 ^ n * numeralValue cs := by
  rw [numeralValue_append, numeralValue_zeros, List.length_replicate, Nat.add_zero]

theorem readWord?_eq_some_iff {cs : List Char} {n : Nat} :
    readWord? cs = some n ↔ isNumeral cs = true ∧ numeralValue cs = n ∧ n < wordSize := by
  unfold readWord?
  by_cases hfits : isNumeral cs = true ∧ numeralValue cs < wordSize
  · rw [if_pos (by simpa using hfits), Option.some.injEq]
    exact ⟨fun h => ⟨hfits.1, h, h ▸ hfits.2⟩, fun h => h.2.1⟩
  · rw [if_neg (by simpa using hfits)]
    constructor
    · intro h
      cases h
    · rintro ⟨hnumeral, rfl, hlt⟩
      exact absurd ⟨hnumeral, hlt⟩ hfits

end QuantumCompiler.Text

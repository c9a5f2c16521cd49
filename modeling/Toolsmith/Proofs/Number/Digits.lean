import Mathlib.Tactic.Positivity
import Mathlib.Tactic.Ring
import Toolsmith.Number.Decimal

/-!
Runs of decimal digits: what they stand for, how many a number takes, and that the first digit of a
number above zero is not a zero.
-/

set_option autoImplicit false

namespace Toolsmith.Decimal

theorem ofDigits_eq_ofDigitChars (digits : List Char) :
    ofDigits digits = Nat.ofDigitChars 10 digits 0 := rfl

theorem ofDigits_toDigits (n : Nat) : ofDigits (Nat.toDigits 10 n) = n := by
  rw [ofDigits_eq_ofDigitChars, Nat.ofDigitChars_ten_toDigits]

theorem ofDigits_append (first second : List Char) :
    ofDigits (first ++ second) = ofDigits first * 10 ^ second.length + ofDigits second := by
  simp only [ofDigits_eq_ofDigitChars, Nat.ofDigitChars_append]
  rw [Nat.ofDigitChars_eq_ofDigitChars_zero, Nat.mul_comm]

theorem ofDigits_zeros (count : Nat) : ofDigits (List.replicate count '0') = 0 := by
  rw [ofDigits_eq_ofDigitChars, Nat.ofDigitChars_replicate_zero, Nat.mul_zero]

/-- Zeros in front change nothing. -/
theorem ofDigits_zeros_append (count : Nat) (digits : List Char) :
    ofDigits (List.replicate count '0' ++ digits) = ofDigits digits := by
  rw [ofDigits_append, ofDigits_zeros, Nat.zero_mul, Nat.zero_add]

/-- Zeros at the end are factors of ten. -/
theorem ofDigits_append_zeros (digits : List Char) (count : Nat) :
    ofDigits (digits ++ List.replicate count '0') = ofDigits digits * 10 ^ count := by
  rw [ofDigits_append, ofDigits_zeros, List.length_replicate, Nat.add_zero]

theorem isDigit_toDigits {n : Nat} {c : Char} (member : c ∈ Nat.toDigits 10 n) :
    c.isDigit = true :=
  Nat.isDigit_of_mem_toDigits (by decide) (by decide) member

theorem toDigits_ten_mul {n : Nat} (positive : 0 < n) :
    Nat.toDigits 10 (n * 10) = Nat.toDigits 10 n ++ ['0'] := by
  have appended := Nat.toDigits_append_toDigits (b := 10) (d := 0) (by decide) positive (by decide)
  rw [Nat.mul_comm, ← Nat.add_zero (10 * n), ← appended, Nat.toDigits_zero]

theorem toDigits_mul_pow {n : Nat} (positive : 0 < n) (count : Nat) :
    Nat.toDigits 10 (n * 10 ^ count) = Nat.toDigits 10 n ++ List.replicate count '0' := by
  induction count with
  | zero => simp
  | succ count inductionHypothesis =>
      have scaled : 0 < n * 10 ^ count := by positivity
      rw [pow_succ, ← mul_assoc, toDigits_ten_mul scaled, inductionHypothesis,
        List.append_assoc, ← List.replicate_succ']

theorem digitCount_mul_pow {n : Nat} (positive : 0 < n) (count : Nat) :
    digitCount (n * 10 ^ count) = digitCount n + count := by
  simp [digitCount, toDigits_mul_pow positive]

theorem digitCount_le_iff {n count : Nat} (positive : 0 < count) :
    digitCount n ≤ count ↔ n < 10 ^ count :=
  Nat.length_toDigits_le_iff (by decide) positive

theorem digitCount_pos (n : Nat) : 0 < digitCount n :=
  Nat.length_toDigits_pos

/-- A number above zero is written without a zero in front. -/
theorem head_toDigits {n : Nat} (positive : 0 < n) :
    ∀ c ∈ (Nat.toDigits 10 n).head?, c ≠ '0' := by
  induction n using Nat.strongRecOn with
  | ind n inductionHypothesis =>
      rw [Nat.toDigits_eq_if (by decide)]
      split
      · rename_i small
        have nonzero : ∀ digit < 10, 0 < digit → digit.digitChar ≠ '0' := by decide
        simpa using nonzero n small positive
      · rename_i large
        rw [List.head?_append_of_ne_nil _ Nat.toDigits_ne_nil]
        exact inductionHypothesis (n / 10) (by omega) (by omega)

end Toolsmith.Decimal

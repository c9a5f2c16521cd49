import Toolsmith.Number.Shortest
import Toolsmith.Proofs.Number.Digits
import Toolsmith.Proofs.Number.Rounding

/-!
Decimals that read back. The floating-point number that a decimal is rounded to depends on its value
alone, and the shortest decimal of a number is rounded to that number.
-/

set_option autoImplicit false

namespace Toolsmith.Double

open Decimal (digitCount)

/-- Zeros at the end of the digits change nothing when the exponent makes up for them. -/
theorem ofDecimal_shift (d : Decimal) (count : Nat) :
    ofDecimal { d with digits := d.digits * 10 ^ count, exponent := d.exponent - count } =
      ofDecimal d := by
  obtain ⟨negative, digits, exponent⟩ := d
  rcases Nat.eq_zero_or_pos digits with rfl | positive
  · simp [ofDecimal]
  have nonzero : digits ≠ 0 := by omega
  have counted : (digitCount (digits * 10 ^ count) : Int) + (exponent - count) =
      digitCount digits + exponent := by
    rw [Decimal.digitCount_mul_pow positive]
    omega
  have power : ∀ exponent : Nat, 0 < Nat.pow 10 exponent := fun _ => Nat.pow_pos (by decide)
  have scaled : digits * 10 ^ count ≠ 0 := by positivity
  have rounded :
      nearest negative (digits * 10 ^ count * Nat.pow 10 (exponent - count).toNat)
          (Nat.pow 10 (-(exponent - count)).toNat) =
        nearest negative (digits * Nat.pow 10 exponent.toNat) (Nat.pow 10 (-exponent).toNat) := by
    apply nearest_congr negative (Nat.mul_pos (by positivity) (power _)) (power _) (power _)
    simp only [Nat.pow_eq, mul_assoc, ← pow_add]
    congr 2
    omega
  simp only [ofDecimal, counted, nonzero, scaled, false_or, rounded]

/-- What `trimZeros` takes away is made up for by the exponent. -/
theorem trimZeros_shift (d : Decimal) :
    ∃ count : Nat, d = { d.trimZeros with
      digits := d.trimZeros.digits * 10 ^ count, exponent := d.trimZeros.exponent - count } := by
  obtain ⟨negative, digits, exponent⟩ := d
  by_cases zero : digits = 0
  · exact ⟨0, by simp [Decimal.trimZeros, zero]⟩
  let written := Nat.toDigits 10 digits
  let kept := (written.reverse.dropWhile (· == '0')).reverse
  let dropped := (written.reverse.takeWhile (· == '0')).reverse
  have parts : kept ++ dropped = written := by
    rw [← List.reverse_append, List.takeWhile_append_dropWhile, List.reverse_reverse]
  have zeros : dropped = List.replicate dropped.length '0' := by
    apply List.eq_replicate_of_mem
    intro c member
    have taken := List.all_eq_true.mp (List.all_takeWhile (p := (· == '0')) (l := written.reverse))
    simpa using taken c (List.mem_reverse.mp member)
  have count : written.length - kept.length = dropped.length := by
    rw [← parts, List.length_append]
    omega
  refine ⟨dropped.length, ?_⟩
  have value : digits = Decimal.ofDigits kept * 10 ^ dropped.length := by
    rw [← Decimal.ofDigits_append_zeros, ← zeros, parts, Decimal.ofDigits_toDigits]
  simp only [Decimal.trimZeros, zero, if_false]
  change (⟨negative, digits, exponent⟩ : Decimal) = ⟨negative,
    Decimal.ofDigits kept * 10 ^ dropped.length,
    exponent + (written.length - kept.length : Nat) - dropped.length⟩
  rw [← value, count, add_sub_cancel_right]

theorem ofDecimal_trimZeros (d : Decimal) : ofDecimal d.trimZeros = ofDecimal d := by
  obtain ⟨count, shifted⟩ := trimZeros_shift d
  conv_rhs => rw [shifted]
  exact (ofDecimal_shift d.trimZeros count).symm

/-! The exact decimal. -/

theorem digitCount_large {n count : Nat} (large : 10 ^ count ≤ n) : count < digitCount n := by
  rcases Nat.eq_zero_or_pos count with rfl | positive
  · exact Decimal.digitCount_pos n
  · have beyond := (Decimal.digitCount_le_iff positive).not.mpr (by omega : ¬ n < 10 ^ count)
    omega

/-- Every floating-point number above zero lies between the bounds from which on a decimal counts as
zero or as infinite. -/
theorem magnitude_exactDecimal (negative : Bool) {significand : Nat} {exponent : Int}
    (canonical : Canonical significand exponent) (positive : 0 < significand) :
    let decimal := exactDecimal negative significand exponent
    (-330 : Int) ≤ digitCount decimal.digits + decimal.exponent ∧
      digitCount decimal.digits + decimal.exponent ≤ 310 := by
  obtain ⟨small, least, greatest, -⟩ := canonical
  simp only [Nat.pow_eq] at small
  simp only [exactDecimal, Nat.pow_eq]
  rcases le_or_gt 0 exponent with whole | fractional
  · have noFives : (-exponent).toNat = 0 := by omega
    have bounded : significand * 2 ^ exponent.toNat < 10 ^ 310 := by
      calc significand * 2 ^ exponent.toNat < 2 ^ 53 * 2 ^ 971 := by
            have powers : 2 ^ exponent.toNat ≤ 2 ^ 971 :=
              pow_le_pow_right₀ (by decide) (by omega)
            exact Nat.mul_lt_mul_of_lt_of_le small powers (pow_pos (by decide) _)
        _ ≤ 10 ^ 310 := by decide +kernel
    have count := (Decimal.digitCount_le_iff (by decide)).mpr bounded
    rw [noFives, pow_zero, mul_one]
    omega
  · obtain ⟨places, rfl⟩ : ∃ places : Nat, exponent = -places := ⟨(-exponent).toNat, by omega⟩
    have noTwos : (-(places : Int)).toNat = 0 := by omega
    have bounded : significand * 5 ^ places < 10 ^ (310 + places) := by
      calc significand * 5 ^ places < 2 ^ 53 * 10 ^ places := by
            apply Nat.mul_lt_mul_of_lt_of_le small _ (by positivity)
            exact Nat.pow_le_pow_left (by decide) places
        _ ≤ 10 ^ 310 * 10 ^ places := Nat.mul_le_mul_right _ (by decide +kernel)
        _ = 10 ^ (310 + places) := (pow_add _ _ _).symm
    have count := (Decimal.digitCount_le_iff (by omega)).mpr bounded
    have large : 10 ^ (places - 331) ≤ significand * 5 ^ places := by
      rcases Nat.lt_or_ge places 331 with few | many
      · rw [show places - 331 = 0 by omega, pow_zero]
        exact Nat.mul_pos positive (by positivity)
      · have twos : 2 ^ (places - 331) ≤ 5 ^ 331 :=
          calc 2 ^ (places - 331) ≤ 2 ^ 743 := Nat.pow_le_pow_right (by decide) (by omega)
            _ ≤ 5 ^ 331 := by decide +kernel
        calc 10 ^ (places - 331) = 2 ^ (places - 331) * 5 ^ (places - 331) := by
              rw [← Nat.mul_pow]
          _ ≤ 5 ^ 331 * 5 ^ (places - 331) := Nat.mul_le_mul_right _ twos
          _ = 5 ^ places := by rw [← pow_add, Nat.add_sub_cancel' many]
          _ ≤ significand * 5 ^ places := Nat.le_mul_of_pos_left _ positive
    have atLeast := digitCount_large large
    simp only [noTwos, pow_zero, mul_one, neg_neg, Int.toNat_natCast]
    omega

/-- The exact value of a number is rounded to that number. -/
theorem ofDecimal_exactDecimal (negative : Bool) {significand : Nat} {exponent : Int}
    (canonical : Canonical significand exponent) :
    ofDecimal (exactDecimal negative significand exponent) =
      .finite negative significand exponent canonical := by
  rcases Nat.eq_zero_or_pos significand with rfl | positive
  · have least : exponent = -1074 := by
      obtain ⟨-, -, -, large | least⟩ := canonical
      · simp at large
      · exact least
    subst least
    have noDigits : (exactDecimal negative 0 (-1074)).digits = 0 := by
      simp only [exactDecimal, Nat.zero_mul]
    rw [ofDecimal, if_pos (.inl noDigits)]
    rfl
  · obtain ⟨low, high⟩ := magnitude_exactDecimal negative canonical positive
    have nonzero : (exactDecimal negative significand exponent).digits ≠ 0 := by
      simp only [exactDecimal, Nat.pow_eq]
      positivity
    rw [ofDecimal, if_neg (by simp only [nonzero, false_or]; omega), if_neg (by omega)]
    apply nearest_eq_finite negative canonical (Nat.pow_pos (by decide)) positive
    simp only [exactDecimal, Nat.pow_eq]
    rcases le_or_gt 0 exponent with whole | fractional
    · simp [show (-exponent).toNat = 0 by omega, show min 0 exponent = 0 by omega]
    · simp only [show min 0 exponent = exponent by omega, show exponent.toNat = 0 by omega,
        pow_zero, mul_one, mul_assoc, ← Nat.mul_pow, Nat.reduceMul]

/-- The shortest decimal of a number reads back as that number. -/
theorem ofDecimal_shortest (negative : Bool) {significand : Nat} {exponent : Int}
    (canonical : Canonical significand exponent) :
    ofDecimal (shortest (.finite negative significand exponent canonical)
      (exactDecimal negative significand exponent)) =
        .finite negative significand exponent canonical := by
  rw [shortest, ofDecimal_trimZeros]
  cases found : ((List.range' 1 17).flatMap
      (neighbours (exactDecimal negative significand exponent))).find? fun candidate =>
        ofDecimal candidate = .finite negative significand exponent canonical with
  | none => exact ofDecimal_exactDecimal negative canonical
  | some candidate => simpa using List.find?_some found

end Toolsmith.Double

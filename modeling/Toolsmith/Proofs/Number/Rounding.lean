import Mathlib.Algebra.Order.Field.Power
import Mathlib.Tactic.FieldSimp
import Mathlib.Tactic.Linarith
import Mathlib.Tactic.Positivity
import Mathlib.Tactic.Ring
import Toolsmith.Number.Double

/-!
Rounding to a floating-point number. The number nearest to a quotient depends on the quotient alone,
not on the fraction that stands for it, and a quotient that is a floating-point number already is
rounded to itself.
-/

set_option autoImplicit false

namespace Toolsmith

/-! Rounding to a whole number. -/

theorem roundHalfEven_mul_left {factor : Nat} (positive : 0 < factor)
    (numerator denominator : Nat) :
    roundHalfEven (factor * numerator) (factor * denominator) =
      roundHalfEven numerator denominator := by
  have twice : 2 * (factor * (numerator % denominator)) =
      factor * (2 * (numerator % denominator)) := by ring
  simp only [roundHalfEven, Nat.mul_div_mul_left _ _ positive, Nat.mul_mod_mul_left, twice,
    Nat.mul_lt_mul_left positive, Nat.mul_left_cancel_iff positive]

theorem roundHalfEven_congr {numerator denominator numerator' denominator' : Nat}
    (positive : 0 < denominator) (positive' : 0 < denominator')
    (same : numerator * denominator' = numerator' * denominator) :
    roundHalfEven numerator denominator = roundHalfEven numerator' denominator' := by
  rw [← roundHalfEven_mul_left positive', ← roundHalfEven_mul_left positive numerator',
    Nat.mul_comm denominator' numerator, same, Nat.mul_comm numerator' denominator,
    Nat.mul_comm denominator' denominator]

theorem roundHalfEven_mul_self (whole : Nat) {denominator : Nat} (positive : 0 < denominator) :
    roundHalfEven (whole * denominator) denominator = whole := by
  simp [roundHalfEven, positive]

namespace Double

/-! The exponent of a quotient. -/

theorem pow_toNat_eq (exponent : Int) :
    (2 : Rat) ^ exponent.toNat = 2 ^ (-exponent).toNat * 2 ^ exponent := by
  have split : exponent.toNat = (-exponent).toNat + exponent := by omega
  rw [← zpow_natCast, ← zpow_natCast, split, zpow_add₀ (by norm_num)]

/-- A quotient is compared with a power of two without fractions. -/
theorem zpow_le_div_iff (numerator : Nat) {denominator : Nat} (positive : 0 < denominator)
    (exponent : Int) :
    (2 : Rat) ^ exponent ≤ numerator / denominator ↔
      denominator * Nat.pow 2 exponent.toNat ≤ numerator * Nat.pow 2 (-exponent).toNat := by
  have positive' : (0 : Rat) < denominator := by exact_mod_cast positive
  have power : (0 : Rat) < 2 ^ (-exponent).toNat := by positivity
  rw [le_div_iff₀ positive', ← mul_le_mul_iff_left₀ power, ← Nat.cast_le (α := Rat)]
  have product : (2 : Rat) ^ exponent * denominator * 2 ^ (-exponent).toNat =
      denominator * 2 ^ exponent.toNat := by
    rw [pow_toNat_eq exponent]
    ring
  simp only [Nat.pow_eq, Nat.cast_mul, Nat.cast_pow, Nat.cast_ofNat, product]

theorem log2_bounds {n : Nat} (positive : 0 < n) :
    (2 : Rat) ^ (n.log2 : Int) ≤ n ∧ (n : Rat) < 2 ^ ((n.log2 : Int) + 1) := by
  have nonzero : n ≠ 0 := by omega
  constructor
  · rw [zpow_natCast]
    exact_mod_cast Nat.log2_self_le nonzero
  · have above : n < 2 ^ (n.log2 + 1) := Nat.lt_log2_self
    have exponent : (n.log2 : Int) + 1 = ((n.log2 + 1 : Nat) : Int) := by omega
    rw [exponent, zpow_natCast]
    exact_mod_cast above

theorem binaryExponent_bounds {numerator denominator : Nat} (numeratorPositive : 0 < numerator)
    (denominatorPositive : 0 < denominator) :
    (2 : Rat) ^ binaryExponent numerator denominator ≤ numerator / denominator ∧
      (numerator : Rat) / denominator < 2 ^ (binaryExponent numerator denominator + 1) := by
  obtain ⟨numeratorLow, numeratorHigh⟩ := log2_bounds numeratorPositive
  obtain ⟨denominatorLow, denominatorHigh⟩ := log2_bounds denominatorPositive
  have positive : (0 : Rat) < denominator := by exact_mod_cast denominatorPositive
  have above : (numerator : Rat) / denominator <
      2 ^ ((numerator.log2 : Int) - denominator.log2 + 1) := by
    rw [div_lt_iff₀ positive]
    calc (numerator : Rat) < 2 ^ ((numerator.log2 : Int) + 1) := numeratorHigh
      _ = 2 ^ ((numerator.log2 : Int) - denominator.log2 + 1) *
            2 ^ (denominator.log2 : Int) := by
          rw [← zpow_add₀ (by norm_num)]
          ring_nf
      _ ≤ 2 ^ ((numerator.log2 : Int) - denominator.log2 + 1) * denominator := by gcongr
  have below : (2 : Rat) ^ ((numerator.log2 : Int) - denominator.log2 - 1) ≤
      numerator / denominator := by
    rw [le_div_iff₀ positive]
    calc (2 : Rat) ^ ((numerator.log2 : Int) - denominator.log2 - 1) * denominator
        ≤ 2 ^ ((numerator.log2 : Int) - denominator.log2 - 1) *
            2 ^ ((denominator.log2 : Int) + 1) := by gcongr
      _ = 2 ^ (numerator.log2 : Int) := by
          rw [← zpow_add₀ (by norm_num)]
          ring_nf
      _ ≤ numerator := numeratorLow
  unfold binaryExponent
  dsimp only
  split
  · rename_i fits
    exact ⟨(zpow_le_div_iff _ denominatorPositive _).mpr fits, above⟩
  · rename_i tooLarge
    refine ⟨below, ?_⟩
    rw [sub_add_cancel]
    exact not_le.mp fun h => tooLarge ((zpow_le_div_iff _ denominatorPositive _).mp h)

theorem binaryExponent_eq {numerator denominator : Nat} (numeratorPositive : 0 < numerator)
    (denominatorPositive : 0 < denominator) {exponent : Int}
    (low : (2 : Rat) ^ exponent ≤ numerator / denominator)
    (high : (numerator : Rat) / denominator < 2 ^ (exponent + 1)) :
    binaryExponent numerator denominator = exponent := by
  obtain ⟨low', high'⟩ := binaryExponent_bounds numeratorPositive denominatorPositive
  have first := (zpow_lt_zpow_iff_right₀ (by norm_num : (1 : Rat) < 2)).mp (low.trans_lt high')
  have second := (zpow_lt_zpow_iff_right₀ (by norm_num : (1 : Rat) < 2)).mp (low'.trans_lt high)
  omega

theorem binaryExponent_congr {numerator denominator numerator' denominator' : Nat}
    (numeratorPositive : 0 < numerator) (denominatorPositive : 0 < denominator)
    (denominatorPositive' : 0 < denominator')
    (same : numerator * denominator' = numerator' * denominator) :
    binaryExponent numerator denominator = binaryExponent numerator' denominator' := by
  have numeratorPositive' : 0 < numerator' :=
    Nat.pos_of_mul_pos_right (same ▸ Nat.mul_pos numeratorPositive denominatorPositive')
  have quotients : (numerator : Rat) / denominator = numerator' / denominator' := by
    rw [div_eq_div_iff (by positivity) (by positivity)]
    exact_mod_cast same
  obtain ⟨low, high⟩ := binaryExponent_bounds numeratorPositive' denominatorPositive'
  exact binaryExponent_eq numeratorPositive denominatorPositive (quotients ▸ low) (quotients ▸ high)

/-! The nearest number. -/

/-- Fractions of one quotient round to one number. -/
theorem nearest_congr (negative : Bool) {numerator denominator numerator' denominator' : Nat}
    (numeratorPositive : 0 < numerator) (denominatorPositive : 0 < denominator)
    (denominatorPositive' : 0 < denominator')
    (same : numerator * denominator' = numerator' * denominator) :
    nearest negative numerator denominator = nearest negative numerator' denominator' := by
  have power : ∀ exponent : Nat, 0 < Nat.pow 2 exponent := fun _ => Nat.pow_pos (by decide)
  have significands : ∀ exponent : Int,
      roundHalfEven (numerator * Nat.pow 2 (-exponent).toNat)
          (denominator * Nat.pow 2 exponent.toNat) =
        roundHalfEven (numerator' * Nat.pow 2 (-exponent).toNat)
          (denominator' * Nat.pow 2 exponent.toNat) := by
    intro exponent
    apply roundHalfEven_congr (Nat.mul_pos denominatorPositive (power _))
      (Nat.mul_pos denominatorPositive' (power _))
    calc numerator * Nat.pow 2 (-exponent).toNat * (denominator' * Nat.pow 2 exponent.toNat)
        = numerator * denominator' *
            (Nat.pow 2 (-exponent).toNat * Nat.pow 2 exponent.toNat) := by ring
      _ = numerator' * Nat.pow 2 (-exponent).toNat * (denominator * Nat.pow 2 exponent.toNat) := by
          rw [same]
          ring
  simp only [nearest, significands,
    binaryExponent_congr numeratorPositive denominatorPositive denominatorPositive' same]

/-- A quotient that is a number already is rounded to it. -/
theorem nearest_eq_finite (negative : Bool) {numerator denominator significand : Nat}
    {exponent : Int} (canonical : Canonical significand exponent)
    (denominatorPositive : 0 < denominator) (nonzero : 0 < significand)
    (exact : numerator * Nat.pow 2 (-exponent).toNat =
      significand * (denominator * Nat.pow 2 exponent.toNat)) :
    nearest negative numerator denominator = .finite negative significand exponent canonical := by
  have power : ∀ exponent : Nat, 0 < Nat.pow 2 exponent := fun _ => Nat.pow_pos (by decide)
  have numeratorPositive : 0 < numerator := by
    apply Nat.pos_of_mul_pos_right (b := Nat.pow 2 (-exponent).toNat)
    rw [exact]
    exact Nat.mul_pos nonzero (Nat.mul_pos denominatorPositive (power _))
  have quotient : (numerator : Rat) / denominator = significand * 2 ^ exponent := by
    have cast : (numerator : Rat) * 2 ^ (-exponent).toNat =
        significand * (denominator * 2 ^ exponent.toNat) := by exact_mod_cast exact
    have positive : (0 : Rat) < denominator := by exact_mod_cast denominatorPositive
    have nonzeroPower : (2 : Rat) ^ (-exponent).toNat ≠ 0 := by positivity
    rw [div_eq_iff positive.ne']
    apply mul_right_cancel₀ nonzeroPower
    rw [cast, pow_toNat_eq exponent]
    ring
  obtain ⟨low, high⟩ := log2_bounds nonzero
  have scale : (0 : Rat) < 2 ^ exponent := by positivity
  have found : binaryExponent numerator denominator = significand.log2 + exponent := by
    apply binaryExponent_eq numeratorPositive denominatorPositive
    · rw [quotient, zpow_add₀ (by norm_num)]
      gcongr
    · rw [quotient, add_right_comm, zpow_add₀ (by norm_num)]
      gcongr
  have bounds := canonical
  obtain ⟨small, least, greatest, normal⟩ := bounds
  have chosen : max (-1074) (binaryExponent numerator denominator - 52) = exponent := by
    have bound : significand.log2 < 53 := (Nat.log2_lt nonzero.ne').mpr small
    rcases normal with large | least'
    · have : 52 ≤ significand.log2 := (Nat.le_log2 nonzero.ne').mpr large
      omega
    · omega
  simp only [nearest, chosen, exact,
    roundHalfEven_mul_self significand (Nat.mul_pos denominatorPositive (power _))]
  rw [if_neg (Nat.ne_of_lt small), ofParts, dif_pos canonical]

end Double

end Toolsmith

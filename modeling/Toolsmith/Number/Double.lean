import Toolsmith.Number.Decimal

/-!
Floating-point numbers of 64 bits (binary64 of IEEE 754), in exact arithmetic. A finite number is
kept in the one form its bits have, so two are equal exactly when they are the same number of the
same sign.
-/

set_option autoImplicit false

namespace Toolsmith

namespace Double

/-- The pairs that stand for a finite magnitude: 53 bits with the highest one set, or fewer at the
least exponent. -/
def Canonical (significand : Nat) (exponent : Int) : Prop :=
  significand < Nat.pow 2 53 ∧ -1074 ≤ exponent ∧ exponent ≤ 971 ∧
    (Nat.pow 2 52 ≤ significand ∨ exponent = -1074)

instance (significand : Nat) (exponent : Int) : Decidable (Canonical significand exponent) :=
  inferInstanceAs (Decidable (_ ∧ _ ∧ _ ∧ (_ ∨ _)))

end Double

inductive Double where
  | finite
      (negative : Bool)
      (significand : Nat)
      (exponent : Int)
      (canonical : Double.Canonical significand exponent)
  | infinite (negative : Bool)
  | nan
deriving DecidableEq, Repr

namespace Double

def isFinite : Double → Bool
  | .finite .. => true
  | _ => false

def zero (negative : Bool) : Double :=
  .finite negative 0 (-1074) (by decide)

/-- The number `significand * 2 ^ exponent`, infinite when it is out of range. -/
def ofParts (negative : Bool) (significand : Nat) (exponent : Int) : Double :=
  if canonical : Canonical significand exponent then .finite negative significand exponent canonical
  else .infinite negative

/-- The largest `e` with `2 ^ e ≤ numerator / denominator`, for a quotient above zero. -/
def binaryExponent (numerator denominator : Nat) : Int :=
  let estimate : Int := (numerator.log2 : Int) - denominator.log2
  if denominator * Nat.pow 2 estimate.toNat ≤ numerator * Nat.pow 2 (-estimate).toNat then estimate
  else estimate - 1

/-- The number nearest to a quotient above zero; of two, the one with an even significand. -/
def nearest (negative : Bool) (numerator denominator : Nat) : Double :=
  let exponent := max (-1074) (binaryExponent numerator denominator - 52)
  let significand :=
    roundHalfEven
      (numerator * Nat.pow 2 (-exponent).toNat)
      (denominator * Nat.pow 2 exponent.toNat)
  if significand = Nat.pow 2 53 then ofParts negative (Nat.pow 2 52) (exponent + 1)
  else ofParts negative significand exponent

/-- The number nearest to a decimal. Below `10 ^ -330` it is zero and from `10 ^ 310` on infinite,
which is told from the count of digits without raising ten to the power. -/
def ofDecimal (d : Decimal) : Double :=
  let magnitude := Decimal.digitCount d.digits + d.exponent
  if d.digits = 0 ∨ magnitude < -330 then zero d.negative
  else if 310 < magnitude then .infinite d.negative
  else
    nearest d.negative
      (d.digits * Nat.pow 10 d.exponent.toNat)
      (Nat.pow 10 (-d.exponent).toNat)

/-- All digits of a finite number: `2 ^ -k` is `5 ^ k * 10 ^ -k`. -/
def exactDecimal (negative : Bool) (significand : Nat) (exponent : Int) : Decimal :=
  { negative
    digits := significand * Nat.pow 2 exponent.toNat * Nat.pow 5 (-exponent).toNat
    exponent := min 0 exponent }

end Double

end Toolsmith

/-!
Decimal numbers: a sign, a whole number of digits and a power of ten.
-/

set_option autoImplicit false

namespace Toolsmith

/-- The number `± digits * 10 ^ exponent`. -/
structure Decimal where
  negative : Bool
  digits : Nat
  exponent : Int
deriving DecidableEq, Repr

/-- A quotient rounded to the nearest whole number, a half to the even neighbour. -/
def roundHalfEven (numerator denominator : Nat) : Nat :=
  let quotient := numerator / denominator
  let twice := 2 * (numerator % denominator)
  if twice < denominator ∨ (twice = denominator ∧ quotient % 2 = 0) then quotient else quotient + 1

/-- The whole number next to a quotient that `roundHalfEven` does not choose. -/
def roundOther (numerator denominator : Nat) : Nat :=
  2 * (numerator / denominator) + 1 - roundHalfEven numerator denominator

namespace Decimal

def digitCount (n : Nat) : Nat :=
  (Nat.toDigits 10 n).length

/-- The value of a run of the digits 0 to 9. -/
def ofDigits (digits : List Char) : Nat :=
  digits.foldl (fun value c => 10 * value + (c.toNat - '0'.toNat)) 0

/-- Cuts a number to its first `count` digits, the last of them rounded by `round`. -/
def cutTo (count : Nat) (round : Nat → Nat → Nat) (d : Decimal) : Decimal :=
  let dropped := digitCount d.digits - count
  { d with digits := round d.digits (Nat.pow 10 dropped), exponent := d.exponent + dropped }

/-- The same number without zeros at the end of its digits. -/
def trimZeros (d : Decimal) : Decimal :=
  let written := Nat.toDigits 10 d.digits
  let kept := (written.reverse.dropWhile (· == '0')).reverse
  if d.digits = 0 then d
  else { d with digits := ofDigits kept, exponent := d.exponent + (written.length - kept.length : Nat) }

end Decimal

end Toolsmith

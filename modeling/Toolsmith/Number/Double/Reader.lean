import Toolsmith.Number.Numeral
import Toolsmith.Text.Blank
import Toolsmith.Text.Digit

/-!
Floating-point numbers as people write them: white space around, an optional sign, decimal digits of
any script with single underscores between them, of which either those before the point or those
after it may be missing, and an optional exponent. Infinity and NaN have names, in letters of either
case.
-/

set_option autoImplicit false

namespace Toolsmith.Double

/-- Writes a digit of any script as one of 0 to 9. -/
def plainDigit (c : Char) : Char :=
  ((Text.digitValue? c).map Nat.digitChar).getD c

/-- Drops each underscore between two digits. -/
def joinDigits : List Char → List Char
  | [] => []
  | first :: '_' :: second :: rest =>
    if first.isDigit ∧ second.isDigit then first :: joinDigits (second :: rest)
    else first :: joinDigits ('_' :: second :: rest)
  | c :: rest => c :: joinDigits rest

/-- A point and the digits after it, of which there may be none. -/
def takePlaces : List Char → List Char × List Char
  | '.' :: rest => Numeral.takeDigits rest
  | text => ([], text)

/-- Reads a number in the digits 0 to 9 that has no sign of its own. -/
def decimal? (negative : Bool) (text : List Char) : Option Decimal :=
  let whole := Numeral.takeDigits text
  let places := takePlaces whole.2
  let exponent := Numeral.readExponent places.2
  if whole.1 ++ places.1 ≠ [] ∧ exponent.2 = [] then
    some
      { negative
        digits := Decimal.ofDigits (whole.1 ++ places.1)
        exponent := exponent.1.getD 0 - places.1.length }
  else none

def read? (text : String) : Option Double :=
  let digits := (Text.trimBy Text.isWhitespace text.toList).map plainDigit
  let sign := Numeral.takeAnySign (joinDigits digits)
  match String.ofList (sign.2.map Char.toLower) with
  | "inf" => some (.infinite sign.1)
  | "infinity" => some (.infinite sign.1)
  | "nan" => some .nan
  | _ => (decimal? sign.1 sign.2).map ofDecimal

end Toolsmith.Double

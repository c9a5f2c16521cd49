import Toolsmith.Number.Double

/-!
The text of a floating-point number: the fewest digits that read back as the same number, and of
those the nearest to it. A power of ten is written out when the first digit stands below `10 ^ -4`
or from `10 ^ 16` on.
-/

set_option autoImplicit false

namespace Toolsmith.Double

/-- The two decimals of a given count of digits around a number, the nearer one first. -/
def neighbours (exact : Decimal) (count : Nat) : List Decimal :=
  [exact.cutTo count roundHalfEven, exact.cutTo count roundOther]

/-- The fewest digits that read back as `x`, whose exact value is `exact`. Seventeen digits always
suffice, so the exact value is a last resort. -/
def shortest (x : Double) (exact : Decimal) : Decimal :=
  let candidates := (List.range' 1 17).flatMap (neighbours exact)
  ((candidates.find? fun candidate => ofDecimal candidate = x).getD exact).trimZeros

def exponentText (e : Int) : List Char :=
  let digits := Nat.toDigits 10 e.natAbs
  'e' :: (if e < 0 then '-' else '+') :: (List.replicate (2 - digits.length) '0' ++ digits)

/-- Digits with the point after the first `point` of them. -/
def positionalText (digits : List Char) (point : Int) : List Char :=
  if point ≤ 0 then '0' :: '.' :: (List.replicate (-point).toNat '0' ++ digits)
  else
    let whole := digits.take point.toNat
    let fraction := digits.drop point.toNat
    whole ++ List.replicate (point.toNat - digits.length) '0' ++
      '.' :: (if fraction.isEmpty then ['0'] else fraction)

def scientificText (digits : List Char) (exponent : Int) : List Char :=
  match digits with
  | [] => []
  | [digit] => digit :: exponentText exponent
  | digit :: fraction => digit :: '.' :: fraction ++ exponentText exponent

def magnitudeText (d : Decimal) : List Char :=
  if d.digits = 0 then ['0', '.', '0']
  else
    let digits := Nat.toDigits 10 d.digits
    let point := d.exponent + digits.length
    if -4 ≤ point - 1 ∧ point - 1 < 16 then positionalText digits point
    else scientificText digits (point - 1)

def signText (negative : Bool) : List Char :=
  if negative then ['-'] else []

/-- The text of a number in messages and literals. -/
def text : Double → List Char
  | x@(.finite negative significand exponent _) =>
    signText negative ++ magnitudeText (x.shortest (exactDecimal negative significand exponent))
  | .infinite negative => signText negative ++ "inf".toList
  | .nan => "nan".toList

end Toolsmith.Double

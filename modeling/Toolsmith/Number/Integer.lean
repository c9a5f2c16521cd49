import Toolsmith.Text.Blank
import Toolsmith.Text.Digit

/-!
Integers. They are written in the digits 0 to 9. They are read as people write them: white space
around, an optional sign, and decimal digits of any script with single underscores between them.
-/

set_option autoImplicit false

namespace Toolsmith.Integer

def write (n : Int) : List Char :=
  (if n < 0 then ['-'] else []) ++ Nat.toDigits 10 n.natAbs

/-- The digits after those that make up `value`. -/
def moreDigits (value : Nat) : List Char → Option Nat
  | [] => some value
  | '_' :: c :: rest => (Text.digitValue? c).bind fun digit => moreDigits (10 * value + digit) rest
  | c :: rest => (Text.digitValue? c).bind fun digit => moreDigits (10 * value + digit) rest

def digits? : List Char → Option Nat
  | [] => none
  | c :: rest => (Text.digitValue? c).bind fun digit => moreDigits digit rest

def signed? : List Char → Option Int
  | '-' :: rest => (digits? rest).map fun magnitude => -(magnitude : Int)
  | '+' :: rest => (digits? rest).map Int.ofNat
  | text => (digits? text).map Int.ofNat

def read? (text : String) : Option Int :=
  signed? (Text.trimBy Text.isWhitespace text.toList)

end Toolsmith.Integer

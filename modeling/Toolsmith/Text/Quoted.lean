import Toolsmith.Text.Hex
import Toolsmith.Text.Printable

/-!
Texts as they are quoted in messages: between single quotes, or between double quotes when the text
holds a single quote and no double one. What cannot be printed is escaped, and so is half of a
surrogate pair, which is no character.
-/

set_option autoImplicit false

namespace Toolsmith.Text

/-- An escape with as many hexadecimal digits as the code point needs: two, four or eight. -/
def escapedCodePoint (n : Nat) : List Char :=
  if n < 0x100 then '\\' :: 'x' :: hexPadded 2 n
  else if n < 0x10000 then '\\' :: 'u' :: hexPadded 4 n
  else '\\' :: 'U' :: hexPadded 8 n

def quotedChar (quote c : Char) : List Char :=
  if c = quote ∨ c = '\\' then ['\\', c]
  else if c = '\n' then ['\\', 'n']
  else if c = '\r' then ['\\', 'r']
  else if c = '\t' then ['\\', 't']
  else if isPrintable c then [c]
  else escapedCodePoint c.toNat

inductive CodePoint where
  | char (c : Char)
  | surrogate (unit : Nat)
deriving DecidableEq, Repr

def CodePoint.quoted (quote : Char) : CodePoint → List Char
  | .char c => quotedChar quote c
  | .surrogate unit => escapedCodePoint unit

def quotedPoints (points : List CodePoint) : String :=
  let quote := if .char '\'' ∈ points ∧ .char '"' ∉ points then '"' else '\''
  String.ofList (quote :: points.flatMap (·.quoted quote) ++ [quote])

def quoted (text : String) : String :=
  quotedPoints (text.toList.map .char)

end Toolsmith.Text

import Toolsmith.Text.Split

/-!
Lines of a text. A line ends at any of the line breaks of Unicode, at an information separator of
the file, group or record kind, and at CR LF, which counts as one break.
-/

set_option autoImplicit false

namespace Toolsmith.Text

def isLineBreak (c : Char) : Bool :=
  let n := c.toNat
  (0x0A ≤ n && n ≤ 0x0D) || (0x1C ≤ n && n ≤ 0x1E) || [0x85, 0x2028, 0x2029].contains n

/-- The lines of a text without their breaks; a break at the very end opens no further line. -/
def lines : List Char → List (List Char)
  | [] => []
  | '\r' :: '\n' :: rest => [] :: lines rest
  | c :: rest => if isLineBreak c then [] :: lines rest else consFirst c (lines rest)

end Toolsmith.Text

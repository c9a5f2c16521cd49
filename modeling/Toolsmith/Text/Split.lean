/-!
Splitting a text at every occurrence of a separator. There is one part more than there are
separators, so an empty text has one empty part.
-/

set_option autoImplicit false

namespace Toolsmith.Text

/-- Puts a character in front of the first part. -/
def consFirst (c : Char) : List (List Char) → List (List Char)
  | [] => [[c]]
  | first :: rest => (c :: first) :: rest

def splitAt (separator : Char) : List Char → List (List Char)
  | [] => [[]]
  | c :: rest =>
    if c = separator then [] :: splitAt separator rest else consFirst c (splitAt separator rest)

end Toolsmith.Text

/-!
Names of the GraphQL grammar: ASCII letters, digits and underscores, not starting with a digit.
-/

set_option autoImplicit false

namespace Toolsmith.GraphQL

def isNameStart (c : Char) : Bool :=
  c.isAlpha || c == '_'

def isNameContinue (c : Char) : Bool :=
  isNameStart c || c.isDigit

def isName (text : String) : Bool :=
  match text.toList with
  | [] => false
  | first :: rest => isNameStart first && rest.all isNameContinue

end Toolsmith.GraphQL

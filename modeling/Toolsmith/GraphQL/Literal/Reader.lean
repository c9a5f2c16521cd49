import Toolsmith.GraphQL.Literal
import Toolsmith.GraphQL.Token

/-!
Reading literals. Every literal is one tree: a token, or a group with the items of a list or the
fields of an object in it. A number with a fraction or an exponent is rounded to the nearest one
there is.
-/

set_option autoImplicit false

namespace Toolsmith.GraphQL.Literal

def ofName : String → Literal
  | "null" => .null
  | "true" => .bool true
  | "false" => .bool false
  | name => .enum name

mutual

def ofTree? : Tree Token → Option Literal
  | .leaf (.int value) => some (.int value)
  | .leaf (.float value) => some (.float (.ofDecimal value))
  | .leaf (.str value) => some (.str value)
  | .leaf (.name name) => some (ofName name)
  | .leaf (.mark _) => none
  | .group .square members => (items? members).map .list
  | .group .curly members => (fields? members).map .object
  | .group .round _ => none

def items? : List (Tree Token) → Option (List Literal)
  | [] => some []
  | item :: rest => do
    let value ← ofTree? item
    let values ← items? rest
    return value :: values

/-- Fields, or arguments: a name, a colon and a literal each. -/
def fields? : List (Tree Token) → Option (List (String × Literal))
  | [] => some []
  | .name name :: .mark .colon :: item :: rest => do
    let value ← ofTree? item
    let fields ← fields? rest
    return (name, value) :: fields
  | _ => none

end

/-- Reads a literal that is not nested too deep. -/
def read? (tree : Tree Token) : Option Literal :=
  if tree.depth ≤ Token.maxDepth then ofTree? tree else none

/-- Reads fields, or arguments, whose literals are not nested too deep. -/
def readFields? (trees : List (Tree Token)) : Option (List (String × Literal)) :=
  if Tree.depthOfAll trees ≤ Token.maxDepth then fields? trees else none

end Toolsmith.GraphQL.Literal

import Toolsmith.GraphQL.Token

/-!
References to types: a name, or a list of what another reference means. Each is required, written
with an exclamation mark, or may be null.
-/

set_option autoImplicit false

namespace Toolsmith.GraphQL

inductive TypeRef where
  | named (name : String) (required : Bool)
  | list (items : TypeRef) (required : Bool)
deriving DecidableEq, Repr

namespace TypeRef

def isRequired : TypeRef → Bool
  | .named _ required => required
  | .list _ required => required

/-- The name inside all lists. -/
def typeName : TypeRef → String
  | .named name _ => name
  | .list items _ => items.typeName

/-- Reads a reference without its own exclamation mark, which `required` stands for. -/
def ofTree? (required : Bool) : Tree Token → Option TypeRef
  | .name name => some (.named name required)
  | .group .square [items] => (ofTree? false items).map (.list · required)
  | .group .square [items, .mark .bang] => (ofTree? true items).map (.list · required)
  | _ => none

/-- Reads a reference that is not nested too deep. -/
def ofShallowTree? (required : Bool) (tree : Tree Token) : Option TypeRef :=
  if tree.depth ≤ Token.maxDepth then ofTree? required tree else none

/-- Reads a reference at the front of the trees. -/
def read : List (Tree Token) → Option (TypeRef × List (Tree Token))
  | tree :: .mark .bang :: rest => (ofShallowTree? true tree).map (·, rest)
  | tree :: rest => (ofShallowTree? false tree).map (·, rest)
  | [] => none

def ofString? (text : String) : Option TypeRef :=
  match (Token.trees? text).bind read with
  | some (type, []) => some type
  | _ => none

end TypeRef

end Toolsmith.GraphQL

import Toolsmith.Json.Basic
import Toolsmith.Number.Integer
import Toolsmith.Number.Shortest
import Toolsmith.Text.StringLiteral

/-!
The texts of JSON values: on one line, or with every item and member on a line of its own, two
spaces deeper than what holds it. An empty array or object stays on one line.
-/

set_option autoImplicit false

namespace Toolsmith.Json

inductive Layout where
  | compact
  | indented
deriving DecidableEq, Repr

/-- What stands between a bracket and the members inside it. -/
def Layout.edge (depth : Nat) : Layout → List Char
  | .compact => []
  | .indented => '\n' :: List.replicate (2 * depth) ' '

/-- What stands between two members. -/
def Layout.separator (depth : Nat) : Layout → List Char
  | .compact => [',', ' ']
  | .indented => ',' :: Layout.indented.edge depth

/-- Members between brackets, one level deeper than the brackets. -/
def enclose
    (layout : Layout)
    (depth : Nat)
    (opening closing : Char)
    (members : List (List Char)) : List Char :=
  if members.isEmpty then [opening, closing]
  else
    opening :: layout.edge (depth + 1) ++
      List.intercalate (layout.separator (depth + 1)) members ++ layout.edge depth ++ [closing]

def floatText : Double → List Char
  | .infinite negative => Double.signText negative ++ "Infinity".toList
  | .nan => "NaN".toList
  | x => x.text

mutual

def write (layout : Layout) (depth : Nat) : Json → List Char
  | .null => "null".toList
  | .bool true => "true".toList
  | .bool false => "false".toList
  | .int value => Integer.write value
  | .float value => floatText value
  | .str value => Text.StringLiteral.write value.toList
  | .arr items => enclose layout depth '[' ']' (writeItems layout (depth + 1) items)
  | .obj members => enclose layout depth '{' '}' (writeMembers layout (depth + 1) members)

def writeItems (layout : Layout) (depth : Nat) : List Json → List (List Char)
  | [] => []
  | item :: rest => write layout depth item :: writeItems layout depth rest

def writeMembers (layout : Layout) (depth : Nat) : List (String × Json) → List (List Char)
  | [] => []
  | (key, value) :: rest =>
    (Text.StringLiteral.write key.toList ++ ':' :: ' ' :: write layout depth value) ::
      writeMembers layout depth rest

end

def text (value : Json) : String :=
  String.ofList (value.write .compact 0)

def indentedText (value : Json) : String :=
  String.ofList (value.write .indented 0)

end Toolsmith.Json

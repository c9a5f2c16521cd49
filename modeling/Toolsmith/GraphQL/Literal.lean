import Toolsmith.Json.Printer

/-!
Literals of the GraphQL grammar, that is values without variables. They are written as arguments of
an operation and read as defaults of a schema.
-/

set_option autoImplicit false

namespace Toolsmith.GraphQL

inductive Literal where
  | null
  | bool (value : Bool)
  | int (value : Int)
  | float (value : Double)
  | str (value : String)
  | enum (name : String)
  | list (items : List Literal)
  | object (fields : List (String × Literal))
deriving Repr, Inhabited

namespace Literal

def separator : List Char := [',', ' ']

mutual

def write : Literal → List Char
  | .null => "null".toList
  | .bool true => "true".toList
  | .bool false => "false".toList
  | .int value => Integer.write value
  | .float value => value.text
  | .str value => Text.StringLiteral.write value.toList
  | .enum name => name.toList
  | .list items => '[' :: List.intercalate separator (writeItems items) ++ [']']
  | .object fields => '{' :: List.intercalate separator (writeFields fields) ++ ['}']

def writeItems : List Literal → List (List Char)
  | [] => []
  | item :: rest => write item :: writeItems rest

/-- Each field as its name, a colon and its value. -/
def writeFields : List (String × Literal) → List (List Char)
  | [] => []
  | (name, value) :: rest => (name.toList ++ ':' :: ' ' :: write value) :: writeFields rest

end

def text (literal : Literal) : String :=
  String.ofList literal.write

mutual

/-- The value a literal stands for whatever type it is given to; an enum value stands for its
name. -/
def toJson : Literal → Json
  | .null => .null
  | .bool value => .bool value
  | .int value => .int value
  | .float value => .float value
  | .str value => .str value
  | .enum name => .str name
  | .list items => .arr (itemsToJson items)
  | .object fields => .obj (fieldsToJson fields)

def itemsToJson : List Literal → List Json
  | [] => []
  | item :: rest => toJson item :: itemsToJson rest

def fieldsToJson : List (String × Literal) → List (String × Json)
  | [] => []
  | (name, value) :: rest => (name, toJson value) :: fieldsToJson rest

end

theorem itemsToJson_eq_map (items : List Literal) : itemsToJson items = items.map toJson := by
  induction items with
  | nil => rfl
  | cons item rest inductionHypothesis => simp [itemsToJson, inductionHypothesis]

theorem fieldsToJson_eq_map (fields : List (String × Literal)) :
    fieldsToJson fields = fields.map fun field => (field.1, field.2.toJson) := by
  induction fields with
  | nil => rfl
  | cons field rest inductionHypothesis => simp [fieldsToJson, inductionHypothesis]

end Literal

/-- Arguments between parentheses; without any there are no parentheses either. -/
def writeArguments (arguments : List (String × Literal)) : List Char :=
  if arguments.isEmpty then []
  else
    '(' :: List.intercalate Literal.separator (Literal.writeFields arguments) ++ [')']

end Toolsmith.GraphQL

import Toolsmith.Json.Printer
import Toolsmith.Value

/-!
Values and JSON. Every JSON value can be given as an argument. The other way a tuple becomes an
array, keys become texts, and what JSON has no form for is refused.
-/

set_option autoImplicit false

namespace Toolsmith

namespace Json

mutual

/-- A JSON value given as an argument. -/
def toValue : Json → Value
  | .null => .null
  | .bool value => .bool value
  | .int value => .int value
  | .float value => .float value
  | .str value => .str value
  | .arr items => .list (itemsToValue items)
  | .obj members => .map (membersToValue members)

def itemsToValue : List Json → List Value
  | [] => []
  | item :: rest => toValue item :: itemsToValue rest

def membersToValue : List (String × Json) → List (Key × Value)
  | [] => []
  | (key, value) :: rest => (.str key, toValue value) :: membersToValue rest

end

end Json

/-- The key of the member that an entry becomes: a key that is no text stands for its JSON text. -/
def Key.memberKey? : Key → Option String
  | .null => some Json.null.text
  | .bool value => some (Json.bool value).text
  | .int value => some (Json.int value).text
  | .float value => some (Json.float value).text
  | .str value => some value
  | .tuple _ => none
  | .foreign _ => none

namespace Value

mutual

def toJson? : Value → Option Json
  | .null => some .null
  | .bool value => some (.bool value)
  | .int value => some (.int value)
  | .float value => some (.float value)
  | .str value => some (.str value)
  | .list items => (itemsToJson? items).map .arr
  | .tuple items => (itemsToJson? items).map .arr
  | .map entries => (entriesToJson? entries).map .obj
  | .foreign _ => none

def itemsToJson? : List Value → Option (List Json)
  | [] => some []
  | item :: rest => do
    let first ← toJson? item
    let others ← itemsToJson? rest
    return first :: others

def entriesToJson? : List (Key × Value) → Option (List (String × Json))
  | [] => some []
  | (key, value) :: rest => do
    let name ← key.memberKey?
    let first ← toJson? value
    let others ← entriesToJson? rest
    return (name, first) :: others

end

end Value

end Toolsmith

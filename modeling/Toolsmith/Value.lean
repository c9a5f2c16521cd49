import Toolsmith.GraphQL.Literal
import Toolsmith.GraphQL.Name
import Toolsmith.Key

/-!
Argument values as a caller gives them, and encoding them as GraphQL literals. The encoding fails at
the first place, from left to right, that has no literal: a key that is no name, a number that is
not finite, or a value of a foreign type. A key comes before its value.
-/

set_option autoImplicit false

namespace Toolsmith

/-- A tuple is a list that does not change, so that it can be a key. -/
inductive Value where
  | null
  | bool (value : Bool)
  | int (value : Int)
  | float (value : Double)
  | str (value : String)
  | list (items : List Value)
  | tuple (items : List Value)
  | map (entries : List (Key × Value))
  | foreign (typeName : String)
deriving Repr, Inhabited

abbrev Arguments := List (Key × Value)

inductive EncodingError where
  | invalidName (key : Key)
  | notFinite (value : Double)
  | unsupported (typeName : String)
deriving DecidableEq, Repr

def EncodingError.message : EncodingError → String
  | .invalidName key => key.quoted ++ " is not a valid GraphQL name"
  | .notFinite value => "Cannot encode non-finite number " ++ String.ofList value.text
  | .unsupported typeName => "Cannot encode " ++ typeName ++ " value as a GraphQL literal"

open GraphQL (Literal)

def Key.name : Key → Except EncodingError String
  | .str text => if GraphQL.isName text then .ok text else .error (.invalidName (.str text))
  | key => .error (.invalidName key)

namespace Value

mutual

def encode : Value → Except EncodingError Literal
  | .null => .ok .null
  | .bool value => .ok (.bool value)
  | .int value => .ok (.int value)
  | .float value => if value.isFinite then .ok (.float value) else .error (.notFinite value)
  | .str value => .ok (.str value)
  | .list items => (encodeItems items).map .list
  | .tuple items => (encodeItems items).map .list
  | .map entries => (encodeEntries entries).map .object
  | .foreign typeName => .error (.unsupported typeName)

def encodeItems : List Value → Except EncodingError (List Literal)
  | [] => .ok []
  | item :: rest => do
    let literal ← encode item
    let literals ← encodeItems rest
    return literal :: literals

def encodeEntries : List (Key × Value) → Except EncodingError (List (String × Literal))
  | [] => .ok []
  | (key, value) :: rest => do
    let name ← key.name
    let literal ← encode value
    let fields ← encodeEntries rest
    return (name, literal) :: fields

end

/-- Null, false, zero and everything empty. -/
def isEmpty : Value → Bool
  | .null => true
  | .bool value => !value
  | .int value => value == 0
  | .float (.finite _ significand _ _) => significand == 0
  | .float _ => false
  | .str value => value.isEmpty
  | .list items => items.isEmpty
  | .tuple items => items.isEmpty
  | .map entries => entries.isEmpty
  | .foreign _ => false

mutual

/-- A value as a key. Lists and maps can be none, and neither can a tuple that holds one. -/
def key? : Value → Option Key
  | .null => some .null
  | .bool value => some (.bool value)
  | .int value => some (.int value)
  | .float value => some (.float value)
  | .str value => some (.str value)
  | .list _ => none
  | .tuple items => (keys? items).map .tuple
  | .map _ => none
  | .foreign typeName => some (.foreign typeName)

def keys? : List Value → Option (List Key)
  | [] => some []
  | item :: rest => do
    let key ← key? item
    let keys ← keys? rest
    return key :: keys

end

end Value

namespace Key

mutual

def toValue : Key → Value
  | .null => .null
  | .bool value => .bool value
  | .int value => .int value
  | .float value => .float value
  | .str value => .str value
  | .tuple items => .tuple (allToValue items)
  | .foreign typeName => .foreign typeName

def allToValue : List Key → List Value
  | [] => []
  | item :: rest => item.toValue :: allToValue rest

end

end Key

/-- What a value is made of, one after the other: the items of a list or a tuple, the keys of a map,
the characters of a text. -/
def Value.parts? : Value → Option (List Value)
  | .str value => some (value.toList.map fun c => .str (String.singleton c))
  | .list items => some items
  | .tuple items => some items
  | .map entries => some (entries.map fun entry => entry.1.toValue)
  | _ => none

namespace Arguments

/-- Sets an argument. A key that is there already keeps its place and takes the new value. -/
def put (key : Key) (value : Value) : Arguments → Arguments
  | [] => [(key, value)]
  | entry :: rest =>
    if entry.1.isSame key then (entry.1, value) :: rest else entry :: put key value rest

/-- The arguments that result when entries are set one after the other. -/
def ofEntries (entries : List (Key × Value)) : Arguments :=
  entries.foldl (fun arguments (key, value) => put key value arguments) []

def encode (arguments : Arguments) : Except EncodingError (List (String × Literal)) :=
  Value.encodeEntries arguments

end Arguments

end Toolsmith

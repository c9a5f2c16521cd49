import Toolsmith.Value

/-!
Calls of tools. A call arrives as a message, a map with the entries `name` and `arguments`; the
order of the arguments is kept.
-/

set_option autoImplicit false

namespace Toolsmith

structure Call where
  name : String
  arguments : Arguments
deriving Repr

/-- A call as it was received; that its name is a text is not known yet. -/
structure CallMessage where
  name : Value
  arguments : Arguments
deriving Repr

/-- Why a message is no call: it has no name, or its arguments are not a map and no list of pairs
either. -/
inductive CallMessageError where
  | missingName
  /-- Neither the arguments as a whole nor a pair of them can be a single value. -/
  | notCollection
  /-- A pair has two parts. -/
  | notPair
  /-- A collection is no key. -/
  | notKey
deriving DecidableEq, Repr

namespace CallMessage

/-- An argument that is given as a pair of key and value. -/
def argumentOfPair (pair : Value) : Except CallMessageError (Key × Value) :=
  match pair.parts? with
  | none => .error .notCollection
  | some [key, value] =>
    match key.key? with
    | none => .error .notKey
    | some key => .ok (key, value)
  | some _ => .error .notPair

/-- Adds the arguments that pairs give to those there are. The first pair that is none decides. -/
def addPairs (arguments : Arguments) : List Value → Except CallMessageError Arguments
  | [] => .ok arguments
  | pair :: rest => do
    let (key, value) ← argumentOfPair pair
    addPairs (arguments.put key value) rest

/-- Arguments that are absent or empty, of whatever type, are no arguments. In place of a map there
may be pairs of keys and values. -/
def argumentsOf (given : Option Value) : Except CallMessageError Arguments :=
  match given with
  | none => .ok []
  | some (.map entries) => .ok entries
  | some value =>
    if value.isEmpty then .ok []
    else
      match value.parts? with
      | none => .error .notCollection
      | some pairs => addPairs [] pairs

def ofEntries (entries : List (Key × Value)) : Except CallMessageError CallMessage :=
  match entries.lookup (.str "name") with
  | none => .error .missingName
  | some name => do
    let arguments ← argumentsOf (entries.lookup (.str "arguments"))
    return { name, arguments }

def call? (message : CallMessage) : Option Call :=
  match message.name with
  | .str name => some { name, arguments := message.arguments }
  | _ => none

end CallMessage

end Toolsmith

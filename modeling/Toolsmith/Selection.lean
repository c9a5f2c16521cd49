import Toolsmith.GraphQL.Schema
import Toolsmith.SelectionPolicy

/-!
Selections of fields. Scalars and enums are always selected; a field of an object or interface type
is selected with the fields inside it, as far as the policy allows and something is left inside. The
depth that the policy allows bounds the recursion, however the types refer to each other.
-/

set_option autoImplicit false

namespace Toolsmith

inductive Selection where
  | leaf (field : String)
  | nested (field : String) (members : List Selection)
deriving Repr

namespace Selection

def surround (members : List (List Char)) : List Char :=
  '{' :: ' ' :: List.intercalate [' '] members ++ [' ', '}']

mutual

def write : Selection → List Char
  | .leaf field => field.toList
  | .nested field members => field.toList ++ ' ' :: surround (writeEach members)

def writeEach : List Selection → List (List Char)
  | [] => []
  | member :: rest => write member :: writeEach rest

end

/-- Selections between braces; nothing at all when there are none. -/
def writeSet (members : List Selection) : List Char :=
  if members.isEmpty then [] else surround (writeEach members)

/-- A field with what is selected inside it, if something is. -/
def nest? (field : String) (members : List Selection) : Option Selection :=
  if members.isEmpty then none else some (.nested field members)

end Selection

namespace GraphQL.Schema

/-- The selection of a field, where `inside` is the selection of a field that has fields itself. -/
def selectField
    (schema : Schema)
    (inside : Field → Option Selection)
    (field : Field) : Option Selection :=
  match schema.kind? field.type.typeName with
  | none => none
  | some kind =>
    if kind.isLeaf then some (.leaf field.name)
    else if kind.fields?.isSome then inside field
    else none

def selectFields
    (schema : Schema)
    (inside : Field → Option Selection)
    (typeName : String) : List Selection :=
  ((schema.fields? typeName).getD []).filterMap (schema.selectField inside)

/-- The selection on a type with so many levels of objects below it. -/
def selectWithin (schema : Schema) (policy : SelectionPolicy) : Nat → String → List Selection
  | 0, typeName => schema.selectFields (fun _ => none) typeName
  | levels + 1, typeName =>
    schema.selectFields
      (fun field =>
        if policy.expands field.name then
          Selection.nest? field.name (schema.selectWithin policy levels field.type.typeName)
        else none)
      typeName

/-- The selection on a type at a depth. -/
def selection
    (schema : Schema)
    (policy : SelectionPolicy)
    (depth : Int)
    (type : TypeRef) : List Selection :=
  schema.selectWithin policy (policy.maxDepth - depth).toNat type.typeName

end GraphQL.Schema

end Toolsmith

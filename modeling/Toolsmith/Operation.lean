import Toolsmith.Call
import Toolsmith.Selection
import Toolsmith.Tool

/-!
Operations: what a call of a tool is compiled to. The arguments are written as they were given; that
they fit the types of the field is for the server to check.
-/

set_option autoImplicit false

namespace Toolsmith

/-- A query or a mutation with one root field. -/
structure Operation where
  kind : OperationKind
  field : String
  arguments : List (String × GraphQL.Literal)
  selection : List Selection
deriving Repr

namespace Operation

def writeField (operation : Operation) : List Char :=
  let call := operation.field.toList ++ GraphQL.writeArguments operation.arguments
  if operation.selection.isEmpty then call
  else call ++ ' ' :: Selection.writeSet operation.selection

def text (operation : Operation) : String :=
  String.ofList
    (operation.kind.keyword.toList ++ ' ' :: '{' :: ' ' :: operation.writeField ++ [' ', '}'])

end Operation

inductive CallError where
  | unknownKind (error : UnknownKind)
  /-- The type of a root has no fields, so there is nothing to look the field up in. -/
  | noFields (kind : OperationKind)
  | unknownField (kind : OperationKind) (field : String)
  | argument (error : EncodingError)
deriving DecidableEq, Repr

def CallError.message : CallError → String
  | .unknownKind error => error.message
  | .noFields kind => (ToolError.noFields kind).message
  | .unknownField kind field => "Unknown " ++ kind.keyword ++ " field: " ++ Text.quoted field
  | .argument error => error.message

namespace GraphQL.Schema

/-- The root field that a tool name leads to. A kind without a root type is as unknown as one that
no tool has. Where the root is an input object, its fields are found like any others. -/
def rootField (schema : Schema) (name : String) : Except CallError (OperationKind × Field) :=
  match ToolName.read name with
  | .error error => .error (.unknownKind error)
  | .ok ⟨kind, fieldName⟩ =>
    if (schema.root? kind).isNone then .error (.unknownKind ⟨name, some kind.label⟩)
    else
      match schema.rootFields? kind with
      | none => .error (.noFields kind)
      | some fields =>
        match fields.find? (·.name = fieldName) with
        | none => .error (.unknownField kind fieldName)
        | some field => .ok (kind, field)

/-- The arguments are looked at only when the name leads to a field. -/
def compile
    (schema : Schema)
    (policy : SelectionPolicy)
    (call : Call) : Except CallError Operation := do
  let (kind, field) ← schema.rootField call.name
  let arguments ← call.arguments.encode.mapError .argument
  return { kind, field := field.name, arguments, selection := schema.selection policy 0 field.type }

end GraphQL.Schema

end Toolsmith

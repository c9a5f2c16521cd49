import Toolsmith.Json.Basic
import Toolsmith.Parameter

/-!
Tools: one for each root field, those of the queries first. Their parameters are counted by what
their input schemas hold, so that tools of any making can be counted if their schemas allow it.
-/

set_option autoImplicit false

namespace Toolsmith

/-- The input schema is an object, whatever else it holds. -/
structure Tool where
  name : String
  description : String
  inputSchema : Json
  isObject : inputSchema.isObject = true
deriving Repr

/-- A member of a tool's input schema is made of nothing that can be counted. -/
structure Uncountable where
  tool : String
  key : String
deriving DecidableEq, Repr

def Uncountable.message (error : Uncountable) : String :=
  "Cannot count " ++ error.key ++ " of tool " ++ Text.quoted error.tool

/-- Why there are no tools. -/
inductive ToolError where
  /-- The type of a root has no fields. -/
  | noFields (kind : OperationKind)
  /-- The type of a root is an input object, so its fields take no arguments. -/
  | noArguments (kind : OperationKind) (field : String)
  | undefinedEnum (error : UndefinedEnum)
deriving DecidableEq, Repr

def ToolError.message : ToolError → String
  | .noFields kind => "The type of the " ++ kind.keyword ++ " root has no fields"
  | .noArguments kind field =>
    "The " ++ kind.keyword ++ " field " ++ Text.quoted field ++ " takes no arguments"
  | .undefinedEnum error => error.message

namespace Parameter

/-- Whatever a parameter asks for, its JSON Schema is an object. -/
theorem isObject_of_toJson {parameter : Parameter} {json : Json}
    (ok : parameter.toJson = .ok json) : json.isObject = true := by
  cases parameter with
  | undefined => simp [toJson] at ok
  | array items notes =>
    simp only [toJson] at ok
    cases made : items.toJson with
    | error => simp [made, bind, Except.bind] at ok
    | ok itemSchema =>
      rw [made] at ok
      exact Except.ok.inj ok ▸ rfl
  | object properties required notes =>
    simp only [toJson] at ok
    cases made : propertiesToJson properties with
    | error => simp [made, bind, Except.bind] at ok
    | ok members =>
      rw [made] at ok
      exact Except.ok.inj ok ▸ rfl
  | _ =>
    rw [toJson] at ok
    exact Except.ok.inj ok ▸ rfl

end Parameter

namespace Tool

/-- How much a member of the input schema holds; nothing if it is absent. -/
def count (tool : Tool) (key : String) : Except Uncountable Nat :=
  match tool.inputSchema.member? key with
  | none => .ok 0
  | some value =>
    match value.size? with
    | none => .error ⟨tool.name, key⟩
    | some size => .ok size

def parameterCount (tool : Tool) : Except Uncountable Nat :=
  tool.count "properties"

def requiredCount (tool : Tool) : Except Uncountable Nat :=
  tool.count "required"

def toJson (tool : Tool) : Json :=
  .obj
    [("name", .str tool.name), ("description", .str tool.description),
      ("inputSchema", tool.inputSchema)]

/-- The description of the tool of a root field, made of its kind and name if it has none. -/
def descriptionOf (kind : OperationKind) (field : GraphQL.Field) : String :=
  (nonemptyDescription field.description).getD (kind.label ++ ": " ++ field.name)

/-- The tool that asks for a parameter. -/
def ofParameter (name description : String) (parameter : Parameter) : Except UndefinedEnum Tool :=
  match made : parameter.toJson with
  | .error error => .error error
  | .ok inputSchema =>
    .ok { name, description, inputSchema, isObject := Parameter.isObject_of_toJson made }

/-- The tool that is made of a field and the arguments it takes. -/
def ofField (schema : GraphQL.Schema) (kind : OperationKind) (field : GraphQL.Field) :
    Except UndefinedEnum Tool :=
  ofParameter (ToolName.text ⟨kind, field.name⟩) (descriptionOf kind field)
    (schema.parameters field.arguments)

end Tool

namespace GraphQL.Schema

/-- The root fields with the kinds of operation they belong to. -/
def allRootFields (schema : Schema) : List (OperationKind × Field) :=
  OperationKind.all.flatMap fun kind => (schema.rootFields kind).map (kind, ·)

/-- The tool of a root field. A field of an input object takes no arguments, so there is no tool to
be made of it. -/
def toolOf (schema : Schema) (kind : OperationKind) (field : Field) : Except ToolError Tool :=
  match schema.rootType? kind with
  | some (.input _) => .error (.noArguments kind field.name)
  | _ => (Tool.ofField schema kind field).mapError .undefinedEnum

/-- The tools of a kind. There are none at all if the root has no fields, or if there is no tool of
one of its fields. -/
def toolsOf (schema : Schema) (kind : OperationKind) : Except ToolError (List Tool) :=
  match schema.rootFields? kind with
  | none => .error (.noFields kind)
  | some fields => fields.mapM (schema.toolOf kind)

/-- The tools of the queries and then those of the mutations, if there are tools of both. -/
def tools (schema : Schema) : Except ToolError (List Tool) := do
  let queryTools ← schema.toolsOf .query
  let mutationTools ← schema.toolsOf .mutation
  return queryTools ++ mutationTools

end GraphQL.Schema

end Toolsmith

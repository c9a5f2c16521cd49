import Toolsmith.GraphQL.TypeRef
import Toolsmith.Json.Basic
import Toolsmith.ToolName

/-!
Schemas: named types and the types of the root operations. Types are looked up by name, so they may
refer to each other in cycles.
-/

set_option autoImplicit false

namespace Toolsmith.GraphQL

/-- An argument, or a field of an input type. The default is the value its literal stands for. -/
structure InputValue where
  name : String
  description : Option String
  type : TypeRef
  default : Option Json
deriving DecidableEq, Repr

/-- Declares a value. One of the same name that is there already is replaced in its place. -/
def InputValue.put (value : InputValue) : List InputValue → List InputValue
  | [] => [value]
  | declared :: rest =>
    if declared.name = value.name then value :: rest else declared :: put value rest

structure Field where
  name : String
  description : Option String
  arguments : List InputValue
  type : TypeRef
deriving DecidableEq, Repr

/-- An enum may be without usable values; it is there all the same. -/
inductive TypeKind where
  | scalar
  | object (fields : List Field)
  | interface (fields : List Field)
  | union
  | enum (values : Option (List String))
  | input (fields : List InputValue)
deriving DecidableEq, Repr

structure TypeDefinition where
  name : String
  description : Option String
  kind : TypeKind
deriving DecidableEq, Repr

/-- The root types are given by name. -/
structure Schema where
  types : List TypeDefinition
  query : Option String
  mutation : Option String
deriving Repr

def TypeKind.isLeaf : TypeKind → Bool
  | .scalar => true
  | .enum _ => true
  | _ => false

/-- The fields that can be selected, if there are such fields at all. -/
def TypeKind.fields? : TypeKind → Option (List Field)
  | .object fields => some fields
  | .interface fields => some fields
  | _ => none

/-- The field of an input object as a field that has no arguments. -/
def InputValue.toField (value : InputValue) : Field :=
  { name := value.name, description := value.description, arguments := [], type := value.type }

/-- The fields that a type has for a root, where those of an input object count too. -/
def TypeKind.rootFields? : TypeKind → Option (List Field)
  | .input fields => some (fields.map InputValue.toField)
  | kind => kind.fields?

theorem TypeKind.rootFields?_eq_some_iff {kind : TypeKind} {fields : List Field} :
    kind.rootFields? = some fields ↔
      kind.fields? = some fields ∨
        ∃ inputs, kind = .input inputs ∧ inputs.map InputValue.toField = fields := by
  cases kind <;> simp [rootFields?, fields?]

namespace Schema

def type? (schema : Schema) (name : String) : Option TypeDefinition :=
  schema.types.find? (·.name = name)

def kind? (schema : Schema) (name : String) : Option TypeKind :=
  (schema.type? name).map (·.kind)

/-- The fields of an object or interface type. -/
def fields? (schema : Schema) (name : String) : Option (List Field) :=
  (schema.kind? name).bind TypeKind.fields?

def root? (schema : Schema) : OperationKind → Option String
  | .query => schema.query
  | .mutation => schema.mutation

def rootType? (schema : Schema) (kind : OperationKind) : Option TypeKind :=
  (schema.root? kind).bind schema.kind?

/-- The fields of a root type in the order of their declaration; no fields without such a type. A
type of any kind may be a root, and one that has no fields at all has no answer here. -/
def rootFields? (schema : Schema) (kind : OperationKind) : Option (List Field) :=
  match schema.rootType? kind with
  | none => some []
  | some type => type.rootFields?

def rootFields (schema : Schema) (kind : OperationKind) : List Field :=
  (schema.rootFields? kind).getD []

theorem rootFields?_of_mem {schema : Schema} {kind : OperationKind} {field : Field}
    (member : field ∈ schema.rootFields kind) :
    schema.rootFields? kind = some (schema.rootFields kind) := by
  cases found : schema.rootFields? kind with
  | none => simp [rootFields, found] at member
  | some fields => simp [rootFields, found]

theorem mem_rootFields {schema : Schema} {kind : OperationKind} {field : Field} :
    field ∈ schema.rootFields kind ↔
      ∃ root type fields, schema.root? kind = some root ∧ schema.kind? root = some type ∧
        type.rootFields? = some fields ∧ field ∈ fields := by
  cases rooted : schema.root? kind with
  | none => simp [rootFields, rootFields?, rootType?, rooted]
  | some root =>
    cases typed : schema.kind? root with
    | none => simp [rootFields, rootFields?, rootType?, rooted, typed]
    | some type =>
      cases found : type.rootFields? with
      | none => simp [rootFields, rootFields?, rootType?, rooted, typed, found]
      | some fields => simp [rootFields, rootFields?, rootType?, rooted, typed, found]

end Schema

end Toolsmith.GraphQL

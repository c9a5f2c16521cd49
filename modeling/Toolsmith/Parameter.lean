import Toolsmith.GraphQL.Schema
import Toolsmith.Text.Quoted

/-!
Parameters of tools: the JSON Schema that says what may be passed where a GraphQL input type is
declared. An input object is expanded once on the way to any place; where it would be expanded
inside itself, its parameter only says that an object is expected. For an enum without usable values
there is no JSON Schema, and neither is there one for what holds such an enum.
-/

set_option autoImplicit false

namespace Toolsmith

inductive ScalarKind where
  | string
  | integer
  | number
  | boolean
deriving DecidableEq, Repr

namespace ScalarKind

def text : ScalarKind → String
  | .string => "string"
  | .integer => "integer"
  | .number => "number"
  | .boolean => "boolean"

/-- Custom scalars are passed as texts. -/
def ofScalarName : String → ScalarKind
  | "Int" => .integer
  | "Float" => .number
  | "Boolean" => .boolean
  | _ => .string

end ScalarKind

/-- What is known of a parameter beside what may be passed. -/
structure Notes where
  description : Option String := none
  default : Option Json := none
deriving Repr

inductive Parameter where
  | scalar (kind : ScalarKind) (notes : Notes)
  | choice (values : List String) (notes : Notes)
  | array (items : Parameter) (notes : Notes)
  | object (properties : List (String × Parameter)) (required : List String) (notes : Notes)
  | unexpanded (notes : Notes)
  | undefined (enum : String)
deriving Repr

/-- An empty description counts as none. -/
def nonemptyDescription (description : Option String) : Option String :=
  description.filter (· ≠ "")

def Notes.describedBy (description : Option String) : Notes :=
  { description := nonemptyDescription description }

/-- What the declaration of an argument or a field adds to the notes on its type. -/
def Notes.attach (value : GraphQL.InputValue) (notes : Notes) : Notes :=
  { description := (nonemptyDescription value.description).or notes.description
    default := value.default.or notes.default }

namespace Parameter

def mapNotes (change : Notes → Notes) : Parameter → Parameter
  | .scalar kind notes => .scalar kind (change notes)
  | .choice values notes => .choice values (change notes)
  | .array items notes => .array items (change notes)
  | .object properties required notes => .object properties required (change notes)
  | .unexpanded notes => .unexpanded (change notes)
  | .undefined enum => .undefined enum

/-- The object that takes declared values by their names; `ofType` maps their types. -/
def objectOf
    (ofType : GraphQL.TypeRef → Parameter)
    (values : List GraphQL.InputValue)
    (notes : Notes) : Parameter :=
  .object
    (values.map fun value => (value.name, (ofType value.type).mapNotes (.attach value)))
    ((values.filter (·.type.isRequired)).map (·.name))
    notes

def dateTimeDescription : String :=
  "ISO 8601 datetime string (e.g., '2025-03-15T14:30:00Z')"

def ofScalar (name : String) : Parameter :=
  if name = "DateTime" then .scalar .string { description := some dateTimeDescription }
  else .scalar (.ofScalarName name) {}

end Parameter

/-- A stricter condition that some member fails is met by fewer members. -/
theorem countP_lt_countP
    {α : Type}
    {wide strict : α → Bool}
    {members : List α}
    {x : α}
    (member : x ∈ members)
    (met : wide x = true)
    (failed : strict x = false)
    (stricter : ∀ a, strict a = true → wide a = true) :
    members.countP strict < members.countP wide := by
  induction members with
  | nil => simp at member
  | cons head tail inductionHypothesis =>
    simp only [List.countP_cons]
    rcases List.mem_cons.mp member with rfl | later
    · have := List.countP_mono_left (l := tail) fun a _ => stricter a
      simp only [met, failed, if_true, Bool.false_eq_true, if_false]
      omega
    · have := inductionHypothesis later
      have : (if strict head = true then 1 else 0) ≤ (if wide head = true then 1 else 0) := by
        have := stricter head
        split <;> simp_all
      omega

namespace GraphQL.Schema

/-- How many types are left to expand. -/
def unexpandedCount (schema : Schema) (expanding : List String) : Nat :=
  schema.types.countP fun type => type.name ∉ expanding

theorem unexpandedCount_cons_lt
    {schema : Schema}
    {expanding : List String}
    {name : String}
    {type : TypeDefinition}
    (found : schema.type? name = some type)
    (fresh : name ∉ expanding) :
    schema.unexpandedCount (name :: expanding) < schema.unexpandedCount expanding := by
  have member := List.mem_of_find?_eq_some found
  have named : type.name = name := by simpa using List.find?_some found
  apply countP_lt_countP member
  · simp [named, fresh]
  · simp [named]
  · intro other outside
    simp_all

/-- The parameter for a value of a type, where the input objects in `expanding` are being expanded.
A type that takes no values is treated as a text. -/
def parameterWithin (schema : Schema) (expanding : List String) : TypeRef → Parameter
  | .list items _ => .array (schema.parameterWithin expanding items) {}
  | .named name _ =>
    match _ : schema.type? name with
    | some ⟨_, description, .enum (some values)⟩ => .choice values (.describedBy description)
    | some ⟨_, _, .enum none⟩ => .undefined name
    | some ⟨_, description, .input fields⟩ =>
      if _ : name ∈ expanding then .unexpanded (.describedBy description)
      else
        .objectOf (fun type => schema.parameterWithin (name :: expanding) type) fields
          (.describedBy description)
    | some ⟨_, _, .scalar⟩ => .ofScalar name
    | _ => .scalar .string {}
termination_by type => (schema.unexpandedCount expanding, sizeOf type)
decreasing_by
  · apply Prod.Lex.right
    simp only [TypeRef.list.sizeOf_spec]
    omega
  · exact Prod.Lex.left _ _ (unexpandedCount_cons_lt (by assumption) (by assumption))

def parameter (schema : Schema) (type : TypeRef) : Parameter :=
  schema.parameterWithin [] type

/-- The parameters of a field: an object with one property for each argument. -/
def parameters (schema : Schema) (arguments : List InputValue) : Parameter :=
  .objectOf schema.parameter arguments {}

end GraphQL.Schema

/-- An enum has no usable values. -/
structure UndefinedEnum where
  name : String
deriving DecidableEq, Repr

def UndefinedEnum.message (error : UndefinedEnum) : String :=
  "Enum " ++ Text.quoted error.name ++ " gives a reason for deprecation that is not a text"

namespace Parameter

def notesToJson (notes : Notes) : List (String × Json) :=
  (notes.description.toList.map fun text => ("description", .str text)) ++
    notes.default.toList.map fun value => ("default", value)

/-- The names of notes are no keywords that ask anything of a value. -/
@[simp]
theorem mem_notesToJson {key : String} {json : Json} {notes : Notes} :
    (key, json) ∈ notesToJson notes ↔
      (key = "description" ∧ ∃ text, notes.description = some text ∧ json = .str text) ∨
        (key = "default" ∧ notes.default = some json) := by
  simp [notesToJson, eq_comm, and_left_comm]

def typeMember (type : String) : String × Json :=
  ("type", .str type)

/-- The names that are required, unless there are none. -/
def requiredMember (names : List String) : List (String × Json) :=
  if names.isEmpty then [] else [("required", .arr (names.map .str))]

@[simp]
theorem mem_requiredMember {key : String} {json : Json} {names : List String} :
    (key, json) ∈ requiredMember names ↔
      names ≠ [] ∧ key = "required" ∧ json = .arr (names.map .str) := by
  cases names <;> simp [requiredMember]

mutual

def toJson : Parameter → Except UndefinedEnum Json
  | .scalar kind notes => .ok (.obj (typeMember kind.text :: notesToJson notes))
  | .choice values notes =>
    .ok (.obj (typeMember "string" :: ("enum", .arr (values.map .str)) :: notesToJson notes))
  | .array items notes => do
    let itemSchema ← items.toJson
    return .obj (typeMember "array" :: ("items", itemSchema) :: notesToJson notes)
  | .object properties required notes => do
    let members ← propertiesToJson properties
    return .obj
      (typeMember "object" :: ("properties", .obj members) ::
        (requiredMember required ++ notesToJson notes))
  | .unexpanded notes => .ok (.obj (typeMember "object" :: notesToJson notes))
  | .undefined enum => .error ⟨enum⟩

def propertiesToJson : List (String × Parameter) → Except UndefinedEnum (List (String × Json))
  | [] => .ok []
  | (name, parameter) :: rest => do
    let schema ← parameter.toJson
    let members ← propertiesToJson rest
    return (name, schema) :: members

end

end Parameter

end Toolsmith

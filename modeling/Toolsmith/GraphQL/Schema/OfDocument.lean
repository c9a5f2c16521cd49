import Toolsmith.GraphQL.Document.Reader
import Toolsmith.GraphQL.Document.Rules

/-!
The schema of a document. What extensions add follows what the definition declares, in the order of
the text. A type of a built-in name stays what it is, whatever a document declares. Without a schema
definition the types `Query` and `Mutation` are the roots.
-/

set_option autoImplicit false

namespace Toolsmith.GraphQL

def InputValue.ofDefinition (definition : InputValueDefinition) : InputValue :=
  { name := definition.name
    description := definition.description
    type := definition.type
    default := definition.default.map Literal.toJson }

def Field.ofDefinition (definition : FieldDefinition) : Field :=
  { name := definition.name
    description := definition.description
    arguments := definition.arguments.map InputValue.ofDefinition
    type := definition.type }

/-- The values of an enum, unless a reason for deprecation is given to one that is not a text. -/
def enumValuesOf? (definitions : List EnumValueDefinition) : Option (List String) :=
  if definitions.all fun definition => Document.givesReason definition.directives then
    some (definitions.map (·.name))
  else none

/-- The kind of a type from all that is said about it; `body` tells which kind it is. -/
def TypeKind.ofBodies (body : TypeBody) (bodies : List TypeBody) : TypeKind :=
  match body with
  | .scalar => .scalar
  | .object .. => .object ((bodies.flatMap TypeBody.outputFields).map Field.ofDefinition)
  | .interface .. => .interface ((bodies.flatMap TypeBody.outputFields).map Field.ofDefinition)
  | .union _ => .union
  | .enum _ => .enum (enumValuesOf? (bodies.flatMap TypeBody.enumValues))
  | .input _ => .input ((bodies.flatMap TypeBody.inputFields).map InputValue.ofDefinition)

namespace Document

def definedTypes (document : Document) : List TypeDefinition :=
  document.filterMap fun
    | .type description declaration =>
      if declaration.name ∈ BuiltIn.typeNames then none
      else
        some
          { name := declaration.name
            description
            kind :=
              .ofBodies declaration.body ((document.declarationsOf declaration.name).map (·.body)) }
    | _ => none

/-- A type is made of its definition and of all that is said about its name, unless the name is
built in. -/
theorem mem_definedTypes {document : Document} {type : TypeDefinition} :
    type ∈ document.definedTypes ↔
      ∃ description declaration, .type description declaration ∈ document ∧
        declaration.name ∉ BuiltIn.typeNames ∧
        type =
          { name := declaration.name
            description
            kind :=
              .ofBodies declaration.body
                ((document.declarationsOf declaration.name).map (·.body)) } := by
  simp only [definedTypes, List.mem_filterMap]
  constructor
  · rintro ⟨definition, member, kept⟩
    cases definition with
    | type description declaration =>
        simp only at kept
        split at kept
        · contradiction
        · rename_i custom
          exact ⟨description, declaration, member, custom, (Option.some.inj kept).symm⟩
    | _ => contradiction
  · rintro ⟨description, declaration, member, custom, rfl⟩
    exact ⟨_, member, if_neg custom⟩

/-- The root type of an operation, where `usual` is its name when there is no schema definition. -/
def root? (document : Document) (operation : RootOperation) (usual : String) : Option String :=
  let declared := document.roots.lookup operation
  if document.schemaDefinitions.isEmpty ∧ usual ∈ document.typeDefinitions.map (·.name) then
    some usual
  else declared

def schema (document : Document) : Schema :=
  { types := BuiltIn.types ++ document.definedTypes
    query := document.root? .query "Query"
    mutation := document.root? .mutation "Mutation" }

end Document

/-- Why a text is no schema: it does not follow the grammar, or it breaks a rule. -/
inductive SchemaError where
  | malformed
  | invalid
deriving DecidableEq, Repr

/-- The message for a text that is no schema; `cause` says what is wrong with the text. -/
def SchemaError.message (cause : String) (_ : SchemaError) : String :=
  "Invalid schema: " ++ cause

def Schema.ofDocument (document : Document) : Except SchemaError Schema :=
  if document.Valid then .ok document.schema else .error .invalid

def Schema.ofSource (source : String) : Except SchemaError Schema :=
  match Document.read? source with
  | none => .error .malformed
  | some document => Schema.ofDocument document

end Toolsmith.GraphQL

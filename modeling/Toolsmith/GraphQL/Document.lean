import Toolsmith.GraphQL.Literal
import Toolsmith.GraphQL.TypeRef

/-!
Documents of the schema definition language: definitions and extensions in the order of the text. A
type's definition and its extensions declare the same kinds of things, so they share their form.
-/

set_option autoImplicit false

namespace Toolsmith.GraphQL

/-- The places at which a directive may stand. -/
inductive DirectiveLocation where
  | query
  | mutation
  | subscription
  | field
  | fragmentDefinition
  | fragmentSpread
  | inlineFragment
  | variableDefinition
  | fragmentVariableDefinition
  | schema
  | scalar
  | object
  | fieldDefinition
  | argumentDefinition
  | interface
  | union
  | enum
  | enumValue
  | inputObject
  | inputFieldDefinition
  | directiveDefinition
deriving DecidableEq, Repr

namespace DirectiveLocation

/-- All locations with their names, in the order of the specification. -/
def names : List (String × DirectiveLocation) :=
  [("QUERY", .query), ("MUTATION", .mutation), ("SUBSCRIPTION", .subscription), ("FIELD", .field),
    ("FRAGMENT_DEFINITION", .fragmentDefinition), ("FRAGMENT_SPREAD", .fragmentSpread),
    ("INLINE_FRAGMENT", .inlineFragment), ("VARIABLE_DEFINITION", .variableDefinition),
    ("FRAGMENT_VARIABLE_DEFINITION", .fragmentVariableDefinition),
    ("SCHEMA", .schema), ("SCALAR", .scalar), ("OBJECT", .object),
    ("FIELD_DEFINITION", .fieldDefinition), ("ARGUMENT_DEFINITION", .argumentDefinition),
    ("INTERFACE", .interface), ("UNION", .union), ("ENUM", .enum), ("ENUM_VALUE", .enumValue),
    ("INPUT_OBJECT", .inputObject), ("INPUT_FIELD_DEFINITION", .inputFieldDefinition),
    ("DIRECTIVE_DEFINITION", .directiveDefinition)]

def ofName? (name : String) : Option DirectiveLocation :=
  names.lookup name

end DirectiveLocation

/-- A directive that is applied to something. -/
structure Directive where
  name : String
  arguments : List (String × Literal)
deriving Repr

/-- An argument, or a field of an input type. -/
structure InputValueDefinition where
  description : Option String
  name : String
  type : TypeRef
  default : Option Literal
  directives : List Directive
deriving Repr

structure FieldDefinition where
  description : Option String
  name : String
  arguments : List InputValueDefinition
  type : TypeRef
  directives : List Directive
deriving Repr

structure EnumValueDefinition where
  description : Option String
  name : String
  directives : List Directive
deriving Repr

inductive TypeBody where
  | scalar
  | object (interfaces : List String) (fields : List FieldDefinition)
  | interface (interfaces : List String) (fields : List FieldDefinition)
  | union (members : List String)
  | enum (values : List EnumValueDefinition)
  | input (fields : List InputValueDefinition)
deriving Repr

/-- What a definition or an extension says about a type. -/
structure TypeDeclaration where
  name : String
  directives : List Directive
  body : TypeBody
deriving Repr

inductive RootOperation where
  | query
  | mutation
  | subscription
deriving DecidableEq, Repr

def RootOperation.ofName? : String → Option RootOperation
  | "query" => some .query
  | "mutation" => some .mutation
  | "subscription" => some .subscription
  | _ => none

structure SchemaDeclaration where
  directives : List Directive
  roots : List (RootOperation × String)
deriving Repr

structure DirectiveDefinition where
  name : String
  arguments : List InputValueDefinition
  repeatable : Bool
  locations : List DirectiveLocation
deriving Repr

inductive Definition where
  | schema (declaration : SchemaDeclaration)
  | type (description : Option String) (declaration : TypeDeclaration)
  | directive (definition : DirectiveDefinition)
  | extendSchema (declaration : SchemaDeclaration)
  | extendType (declaration : TypeDeclaration)
deriving Repr

abbrev Document := List Definition

namespace TypeBody

/-- Whether nothing is declared. -/
def isEmpty : TypeBody → Bool
  | .scalar => true
  | .object interfaces fields => interfaces.isEmpty && fields.isEmpty
  | .interface interfaces fields => interfaces.isEmpty && fields.isEmpty
  | .union members => members.isEmpty
  | .enum values => values.isEmpty
  | .input fields => fields.isEmpty

/-- The fields that have arguments of their own. -/
def outputFields : TypeBody → List FieldDefinition
  | .object _ fields => fields
  | .interface _ fields => fields
  | _ => []

def inputFields : TypeBody → List InputValueDefinition
  | .input fields => fields
  | _ => []

def enumValues : TypeBody → List EnumValueDefinition
  | .enum values => values
  | _ => []

def interfaces : TypeBody → List String
  | .object interfaces _ => interfaces
  | .interface interfaces _ => interfaces
  | _ => []

def members : TypeBody → List String
  | .union members => members
  | _ => []

/-- The names of all fields, of whichever kind. -/
def fieldNames (body : TypeBody) : List String :=
  body.outputFields.map (·.name) ++ body.inputFields.map (·.name)

def location : TypeBody → DirectiveLocation
  | .scalar => .scalar
  | .object .. => .object
  | .interface .. => .interface
  | .union _ => .union
  | .enum _ => .enum
  | .input _ => .inputObject

end TypeBody

namespace Document

def typeDefinitions (document : Document) : List TypeDeclaration :=
  document.filterMap fun
    | .type _ declaration => some declaration
    | _ => none

def typeExtensions (document : Document) : List TypeDeclaration :=
  document.filterMap fun
    | .extendType declaration => some declaration
    | _ => none

def schemaDefinitions (document : Document) : List SchemaDeclaration :=
  document.filterMap fun
    | .schema declaration => some declaration
    | _ => none

def schemaExtensions (document : Document) : List SchemaDeclaration :=
  document.filterMap fun
    | .extendSchema declaration => some declaration
    | _ => none

def directiveDefinitions (document : Document) : List DirectiveDefinition :=
  document.filterMap fun
    | .directive definition => some definition
    | _ => none

theorem mem_typeDefinitions {document : Document} {declaration : TypeDeclaration} :
    declaration ∈ document.typeDefinitions ↔
      ∃ description, .type description declaration ∈ document := by
  simp only [typeDefinitions, List.mem_filterMap]
  constructor
  · rintro ⟨definition, member, kept⟩
    cases definition with
    | type description declared =>
        obtain rfl := Option.some.inj kept
        exact ⟨description, member⟩
    | _ => contradiction
  · rintro ⟨description, member⟩
    exact ⟨_, member, rfl⟩

theorem mem_typeExtensions {document : Document} {declaration : TypeDeclaration} :
    declaration ∈ document.typeExtensions ↔ .extendType declaration ∈ document := by
  simp only [typeExtensions, List.mem_filterMap]
  constructor
  · rintro ⟨definition, member, kept⟩
    cases definition with
    | extendType declared =>
        obtain rfl := Option.some.inj kept
        exact member
    | _ => contradiction
  · intro member
    exact ⟨_, member, rfl⟩

/-- All that is said about types. -/
def typeDeclarations (document : Document) : List TypeDeclaration :=
  document.typeDefinitions ++ document.typeExtensions

def schemaDeclarations (document : Document) : List SchemaDeclaration :=
  document.schemaDefinitions ++ document.schemaExtensions

/-- All that is said about one type: its definition first, then its extensions in order. -/
def declarationsOf (document : Document) (name : String) : List TypeDeclaration :=
  document.typeDeclarations.filter (·.name = name)

end Document

end Toolsmith.GraphQL

import Toolsmith.GraphQL.Document
import Toolsmith.GraphQL.Schema

/-!
What every schema has without declaring it: the five scalars, the types of introspection and the
directives of the specification.
-/

set_option autoImplicit false

namespace Toolsmith.GraphQL.BuiltIn

def scalarNames : List String :=
  ["String", "Int", "Float", "Boolean", "ID"]

def optional (name : String) : TypeRef := .named name false

def required (name : String) : TypeRef := .named name true

def optionalListOf (name : String) : TypeRef := .list (required name) false

def requiredListOf (name : String) : TypeRef := .list (required name) true

def field (name : String) (type : TypeRef) : Field :=
  { name, description := none, arguments := [], type }

def describedField (name description : String) (type : TypeRef) : Field :=
  { name, description := some description, arguments := [], type }

/-- The argument that asks for deprecated members too. -/
def includeDeprecated (default : Option Json) : InputValue :=
  { name := "includeDeprecated", description := none, type := required "Boolean", default }

def fieldWithDeprecated (name : String) (type : TypeRef) : Field :=
  { name, description := none, arguments := [includeDeprecated none], type }

def schemaFields : List Field :=
  [field "description" (optional "String"),
    describedField "types" "A list of all types supported by this server."
      (requiredListOf "__Type"),
    describedField "queryType" "The type that query operations will be rooted at."
      (required "__Type"),
    describedField "mutationType"
      ("If this server supports mutation, the type that mutation operations " ++
        "will be rooted at.")
      (optional "__Type"),
    describedField "subscriptionType"
      ("If this server supports subscription, the type that subscription operations " ++
        "will be rooted at.")
      (optional "__Type"),
    { name := "directives"
      description := some "A list of all directives supported by this server."
      arguments := [includeDeprecated (some (.bool false))]
      type := requiredListOf "__Directive" }]

def directiveFields : List Field :=
  [field "name" (required "String"), field "description" (optional "String"),
    field "isRepeatable" (required "Boolean"),
    field "locations" (requiredListOf "__DirectiveLocation"),
    fieldWithDeprecated "args" (requiredListOf "__InputValue"),
    field "isDeprecated" (required "Boolean"), field "deprecationReason" (optional "String")]

def typeFields : List Field :=
  [field "kind" (required "__TypeKind"), field "name" (optional "String"),
    field "description" (optional "String"), field "specifiedByURL" (optional "String"),
    fieldWithDeprecated "fields" (optionalListOf "__Field"),
    field "interfaces" (optionalListOf "__Type"), field "possibleTypes" (optionalListOf "__Type"),
    fieldWithDeprecated "enumValues" (optionalListOf "__EnumValue"),
    fieldWithDeprecated "inputFields" (optionalListOf "__InputValue"),
    field "ofType" (optional "__Type"), field "isOneOf" (optional "Boolean")]

def fieldFields : List Field :=
  [field "name" (required "String"), field "description" (optional "String"),
    fieldWithDeprecated "args" (requiredListOf "__InputValue"), field "type" (required "__Type"),
    field "isDeprecated" (required "Boolean"), field "deprecationReason" (optional "String")]

def inputValueFields : List Field :=
  [field "name" (required "String"), field "description" (optional "String"),
    field "type" (required "__Type"),
    describedField "defaultValue"
      "A GraphQL-formatted string representing the default value for this input value."
      (optional "String"),
    field "isDeprecated" (required "Boolean"), field "deprecationReason" (optional "String")]

def enumValueFields : List Field :=
  [field "name" (required "String"), field "description" (optional "String"),
    field "isDeprecated" (required "Boolean"), field "deprecationReason" (optional "String")]

def typeKinds : List String :=
  ["SCALAR", "OBJECT", "INTERFACE", "UNION", "ENUM", "INPUT_OBJECT", "LIST", "NON_NULL"]

def locationDescription : String :=
  "A Directive can be adjacent to many parts of the GraphQL language, " ++
    "a __DirectiveLocation describes one such possible adjacencies."

def typeKindDescription : String :=
  "An enum describing what kind of type a given `__Type` is."

/-- The types of introspection. Of types only enums show their descriptions, so they alone have
one. -/
def introspectionTypes : List TypeDefinition :=
  [⟨"__Schema", none, .object schemaFields⟩,
    ⟨"__Directive", none, .object directiveFields⟩,
    ⟨"__DirectiveLocation", some locationDescription,
      .enum (some (DirectiveLocation.names.map Prod.fst))⟩,
    ⟨"__Type", none, .object typeFields⟩,
    ⟨"__Field", none, .object fieldFields⟩,
    ⟨"__InputValue", none, .object inputValueFields⟩,
    ⟨"__EnumValue", none, .object enumValueFields⟩,
    ⟨"__TypeKind", some typeKindDescription, .enum (some typeKinds)⟩]

def types : List TypeDefinition :=
  (scalarNames.map fun name => ⟨name, none, .scalar⟩) ++ introspectionTypes

def typeNames : List String :=
  types.map (·.name)

def argument (name : String) (type : TypeRef) (default : Option Literal) : InputValueDefinition :=
  { description := none, name, type, default, directives := [] }

/-- What can be deprecated. -/
def deprecableLocations : List DirectiveLocation :=
  [.fieldDefinition, .argumentDefinition, .inputFieldDefinition, .enumValue]

def directives : List DirectiveDefinition :=
  [{ name := "include"
     arguments := [argument "if" (required "Boolean") none]
     repeatable := false
     locations := [.field, .fragmentSpread, .inlineFragment] },
    { name := "skip"
      arguments := [argument "if" (required "Boolean") none]
      repeatable := false
      locations := [.field, .fragmentSpread, .inlineFragment] },
    { name := "deprecated"
      arguments := [argument "reason" (optional "String") (some (.str "No longer supported"))]
      repeatable := false
      locations := deprecableLocations },
    { name := "specifiedBy"
      arguments := [argument "url" (required "String") none]
      repeatable := false
      locations := [.scalar] },
    { name := "oneOf", arguments := [], repeatable := false, locations := [.inputObject] }]

end Toolsmith.GraphQL.BuiltIn

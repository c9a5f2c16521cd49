import Toolsmith.GraphQL.BuiltIn

/-!
The rules a document keeps beyond its grammar: what is declared is declared once, what is referred
to exists, and directives are applied as they are defined. The rules hold of a document as a whole,
so an extension may stand before the type it extends.
-/

set_option autoImplicit false

namespace Toolsmith.GraphQL

mutual

/-- Whether no object in a literal repeats the name of a field. -/
def Literal.hasDistinctFields : Literal → Bool
  | .list items => Literal.allHaveDistinctFields items
  | .object fields =>
    decide (fields.map Prod.fst).Nodup && Literal.allFieldsHaveDistinctFields fields
  | _ => true

def Literal.allHaveDistinctFields : List Literal → Bool
  | [] => true
  | item :: rest => item.hasDistinctFields && Literal.allHaveDistinctFields rest

def Literal.allFieldsHaveDistinctFields : List (String × Literal) → Bool
  | [] => true
  | (_, value) :: rest => value.hasDistinctFields && Literal.allFieldsHaveDistinctFields rest

end

/-- Directives and the place they are applied at. -/
structure DirectiveSite where
  location : DirectiveLocation
  directives : List Directive

namespace Document

/-! Names that are declared. -/

abbrev HasOneSchema (document : Document) : Prop :=
  document.schemaDefinitions.length ≤ 1

def roots (document : Document) : List (RootOperation × String) :=
  document.schemaDeclarations.flatMap (·.roots)

abbrev HasDistinctRoots (document : Document) : Prop :=
  (document.roots.map Prod.fst).Nodup

abbrev HasDistinctTypes (document : Document) : Prop :=
  (document.typeDefinitions.map (·.name)).Nodup

abbrev HasDistinctFields (document : Document) : Prop :=
  ∀ declaration ∈ document.typeDeclarations,
    ((document.declarationsOf declaration.name).flatMap (·.body.fieldNames)).Nodup

abbrev HasDistinctEnumValues (document : Document) : Prop :=
  ∀ declaration ∈ document.typeDeclarations,
    ((document.declarationsOf declaration.name).flatMap fun declared =>
      declared.body.enumValues.map (·.name)).Nodup

/-- The arguments of each field and of each directive that is defined. -/
def argumentLists (document : Document) : List (List InputValueDefinition) :=
  (document.typeDeclarations.flatMap fun declaration =>
      declaration.body.outputFields.map (·.arguments)) ++
    document.directiveDefinitions.map (·.arguments)

abbrev HasDistinctArguments (document : Document) : Prop :=
  ∀ arguments ∈ document.argumentLists, (arguments.map (·.name)).Nodup

abbrev HasDistinctDirectives (document : Document) : Prop :=
  (document.directiveDefinitions.map (·.name)).Nodup

/-- An extension is of the kind of the type it extends. -/
abbrev ExtendsDefinedTypes (document : Document) : Prop :=
  ∀ extension ∈ document.typeExtensions,
    ∃ definition ∈ document.typeDefinitions,
      definition.name = extension.name ∧ definition.body.location = extension.body.location

/-! Types that are referred to. -/

/-- Arguments and fields of input types. -/
def inputValues (document : Document) : List InputValueDefinition :=
  document.argumentLists.flatten ++
    document.typeDeclarations.flatMap (·.body.inputFields)

def typeReferences (document : Document) : List String :=
  document.inputValues.map (·.type.typeName) ++
    (document.typeDeclarations.flatMap fun declaration =>
      declaration.body.outputFields.map (·.type.typeName) ++ declaration.body.interfaces ++
        declaration.body.members) ++
    document.roots.map Prod.snd

abbrev RefersToKnownTypes (document : Document) : Prop :=
  ∀ name ∈ document.typeReferences,
    name ∈ BuiltIn.typeNames ∨ name ∈ document.typeDefinitions.map (·.name)

/-! Directives that are applied. -/

/-- The definition of a directive; one in the document comes before one that is built in. -/
def directive? (document : Document) (name : String) : Option DirectiveDefinition :=
  (document.directiveDefinitions ++ BuiltIn.directives).find? (·.name = name)

def argumentSites (arguments : List InputValueDefinition) : List DirectiveSite :=
  arguments.map fun argument => ⟨.argumentDefinition, argument.directives⟩

/-- The sites at the fields of a type and at their arguments. -/
def fieldSites (body : TypeBody) : List DirectiveSite :=
  (body.outputFields.flatMap fun field =>
      ⟨.fieldDefinition, field.directives⟩ :: argumentSites field.arguments) ++
    body.inputFields.map fun field => ⟨.inputFieldDefinition, field.directives⟩

def enumValueSites (body : TypeBody) : List DirectiveSite :=
  body.enumValues.map fun value => ⟨.enumValue, value.directives⟩

/-- The sites at the arguments of the directives that are defined. -/
def directiveArgumentSites (document : Document) : List DirectiveSite :=
  document.directiveDefinitions.flatMap fun definition => argumentSites definition.arguments

/-- All sites below schemas and types. -/
def innerSites (document : Document) : List DirectiveSite :=
  (document.typeDeclarations.flatMap fun declaration =>
      fieldSites declaration.body ++ enumValueSites declaration.body) ++
    document.directiveArgumentSites

def sites (document : Document) : List DirectiveSite :=
  (document.schemaDeclarations.map fun declaration => ⟨.schema, declaration.directives⟩) ++
    (document.typeDeclarations.map fun declaration =>
      ⟨declaration.body.location, declaration.directives⟩) ++
    document.innerSites

/-- The directives that may not repeat each other: those of one site, and of all that is said about
one type or about the schema. -/
def directiveGroups (document : Document) : List (List Directive) :=
  (document.schemaDeclarations.flatMap (·.directives)) ::
    (document.typeDeclarations.map fun declaration =>
      (document.declarationsOf declaration.name).flatMap (·.directives)) ++
    document.innerSites.map (·.directives)

/-- A directive may be repeated only if its definition says so. -/
abbrev RepeatsOnlyRepeatable (document : Document) : Prop :=
  ∀ group ∈ document.directiveGroups,
    ((group.map (·.name)).filter fun name =>
      !((document.directive? name).any (·.repeatable))).Nodup

/-- The arguments that a directive is applied with are known and distinct, and those it needs are
among them. -/
abbrev TakesArguments (definition : DirectiveDefinition) (given : List String) : Prop :=
  given.Nodup ∧
    (∀ name ∈ given, name ∈ definition.arguments.map (·.name)) ∧
    ∀ argument ∈ definition.arguments,
      argument.type.isRequired = true → argument.default.isNone = true → argument.name ∈ given

/-- Each directive is defined for the place it is applied at and takes its arguments. -/
abbrev AppliesDirectives (document : Document) : Prop :=
  ∀ site ∈ document.sites, ∀ applied ∈ site.directives,
    (document.directive? applied.name).any (fun definition =>
      site.location ∈ definition.locations ∧
        TakesArguments definition (applied.arguments.map Prod.fst)) = true

/-! Literals. -/

def literals (document : Document) : List Literal :=
  document.inputValues.filterMap (·.default) ++
    (document.sites.flatMap (·.directives)).flatMap fun applied => applied.arguments.map Prod.snd

abbrev HasDistinctLiteralFields (document : Document) : Prop :=
  ∀ literal ∈ document.literals, literal.hasDistinctFields = true

/-- The value of an argument of the first directive of a name, if there is such a directive. -/
def firstArgument? (directives : List Directive) (name argument : String) :
    Option (Option Literal) :=
  (directives.find? (·.name = name)).map fun applied => applied.arguments.lookup argument

def isText : Option Literal → Bool
  | some (.str _) => true
  | _ => false

/-- Whether the reason for a deprecation, if one is given, is a text. -/
def givesReason (directives : List Directive) : Bool :=
  (firstArgument? directives "deprecated" "reason").all fun reason =>
    reason.isNone || isText reason

/-- The declarations that take part in the schema; those of a built-in name do not. -/
def effectiveDeclarations (document : Document) : List TypeDeclaration :=
  document.typeDeclarations.filter (·.name ∉ BuiltIn.typeNames)

/-- The sites whose reasons for deprecation are looked at. Enum values are not among them: where the
reason for one is wrong, only the values of its enum cannot be used. -/
def reasonSites (document : Document) : List DirectiveSite :=
  (document.effectiveDeclarations.flatMap fun declaration => fieldSites declaration.body) ++
    document.directiveArgumentSites

/-- A reason for deprecation is a text, or left out. -/
abbrev GivesReasons (document : Document) : Prop :=
  ∀ site ∈ document.reasonSites, givesReason site.directives = true

abbrev GivesAddresses (document : Document) : Prop :=
  ∀ declaration ∈ document.effectiveDeclarations, declaration.body.location = .scalar →
    (firstArgument? declaration.directives "specifiedBy" "url").all isText = true

/-- All rules together. -/
def Valid (document : Document) : Prop :=
  document.HasOneSchema ∧
    document.HasDistinctRoots ∧
    document.HasDistinctTypes ∧
    document.HasDistinctFields ∧
    document.HasDistinctEnumValues ∧
    document.HasDistinctArguments ∧
    document.HasDistinctDirectives ∧
    document.ExtendsDefinedTypes ∧
    document.RefersToKnownTypes ∧
    document.RepeatsOnlyRepeatable ∧
    document.AppliesDirectives ∧
    document.HasDistinctLiteralFields ∧
    document.GivesReasons ∧
    document.GivesAddresses

instance (document : Document) : Decidable document.Valid := by
  unfold Valid
  infer_instance

end Document

end Toolsmith.GraphQL

import Toolsmith.Proofs.GraphQL.Document.Declaration
import Toolsmith.Proofs.GraphQL.Schema.Names
import Toolsmith.Proofs.Parameter.Notes
import Toolsmith.Proofs.Value.Default
import Toolsmith.Proofs.Value.Denotation

/-!
Defaults that are written as an encoder writes values. Where an argument can be declared, it can be
declared with any description and with the literal of any value as its default, and its parameter
has the description and the value, whatever its type.
-/

set_option autoImplicit false

namespace Toolsmith.GraphQL

open Token (maxDepth)

/-- The argument with another description and another default. -/
def InputValueDefinition.withNotes (argument : InputValueDefinition) (description : String)
    (default : Literal) : InputValueDefinition :=
  { argument with description := some description, default := some default }

def FieldDefinition.withArguments (field : FieldDefinition)
    (arguments : List InputValueDefinition) : FieldDefinition :=
  { field with arguments }

namespace Schema

/-- An object type with one field that can be declared beside the types of a schema: it has a new
name and refers to known types, and nothing in it has directives or is declared twice. -/
structure Fits (schema : Schema) (owner : String) (field : FieldDefinition) : Prop where
  valid : isName owner = true
  fresh : schema.kind? owner = none
  writable : field.Writable
  distinct : (field.arguments.map (·.name)).Nodup
  known : (schema.kind? field.type.typeName).isSome
  knownArguments : ∀ argument ∈ field.arguments, (schema.kind? argument.type.typeName).isSome
  defaults : ∀ argument ∈ field.arguments, ∀ literal ∈ argument.default,
    literal.hasDistinctFields = true

variable {schema : Schema} {owner : String} {field : FieldDefinition}

theorem Fits.admits {document : Document} (fits : document.schema.Fits owner field) :
    document.Admits owner [field] where
  fresh := by
    intro declared
    have known := Document.isSome_kind?_iff.mpr (Or.inr declared)
    rw [fits.fresh] at known
    contradiction
  distinctFields := List.nodup_singleton field.name
  distinctArguments := by simpa using fits.distinct
  bareFields := by simpa using fits.writable.bare
  bareArguments := by
    simpa using fun argument member => (fits.writable.arguments argument member).bare
  knownFields := by simpa using Document.isSome_kind?_iff.mp fits.known
  knownArguments := by
    simpa using fun argument member =>
      Document.isSome_kind?_iff.mp (fits.knownArguments argument member)
  defaults := by simpa using fits.defaults

/-- A type that fits can be declared above the text of a schema. All other types stay what they
are. -/
theorem ofSource_above {rest : String} (accepted : ofSource rest = .ok schema)
    (fits : schema.Fits owner field) (shallow : field.IsShallow) :
    ∃ extended,
      ofSource (field.above owner rest) = .ok extended ∧
      extended.kind? owner = some (.object [Field.ofDefinition field]) ∧
      ∀ other, owner ≠ other → extended.kind? other = schema.kind? other := by
  obtain ⟨document, read, valid, rfl⟩ := ofSource_eq_ok_iff.mp accepted
  have admits := fits.admits
  have defined : document.ExtendsDefinedTypes := valid.2.2.2.2.2.2.2.1
  have custom : owner ∉ BuiltIn.typeNames := by
    intro builtIn
    have known : (document.schema.kind? owner).isSome :=
      Document.isSome_kind?_iff.mpr (Or.inl builtIn)
    rw [fits.fresh] at known
    contradiction
  have longer := FieldDefinition.read?_above fits.writable fits.valid read
  rw [if_pos shallow] at longer
  refine ⟨(document.withType owner [field]).schema, ?_, ?_, ?_⟩
  · exact ofSource_eq_ok_iff.mpr ⟨_, longer, Document.valid_withType valid admits, rfl⟩
  · exact Document.kind?_withType_new defined admits.fresh custom
  · exact fun other different =>
      Document.kind?_withType_other defined admits.fresh custom different

/-- A type that is nested too deep cannot be read. -/
theorem ofSource_above_deep {rest : String} (accepted : ofSource rest = .ok schema)
    (valid : isName owner = true) (writable : field.Writable) (deep : ¬ field.IsShallow) :
    ofSource (field.above owner rest) = .error .malformed := by
  obtain ⟨document, read, _, _⟩ := ofSource_eq_ok_iff.mp accepted
  have longer := FieldDefinition.read?_above writable valid read
  rw [if_neg deep] at longer
  rw [ofSource, longer]

/-- An object type more leads to no other input type. -/
theorem avoidsUnusableEnums_of_object {extended : Schema} {fields : List Field}
    (object : extended.kind? owner = some (.object fields))
    (others : ∀ other, owner ≠ other → extended.kind? other = schema.kind? other) {type : TypeRef}
    (avoids : schema.AvoidsUnusableEnums type) : extended.AvoidsUnusableEnums type := by
  have holds : ∀ holder held, extended.Holds holder held → schema.Holds holder held := by
    rintro holder held ⟨inputs, input, member⟩
    by_cases same : owner = holder
    · rw [← same, object] at input
      simp at input
    · exact ⟨inputs, others holder same ▸ input, member⟩
  intro name reaches unusable
  have different : owner ≠ name := by
    rintro rfl
    rw [object] at unusable
    simp at unusable
  rw [others name different] at unusable
  exact avoids name (Relation.ReflTransGen.mono holds _ _ reaches) unusable

theorem forall_mem_replace {α : Type} {holds : α → Prop} {before after : List α}
    {present replacement : α} (all : ∀ member ∈ before ++ present :: after, holds member)
    (own : holds replacement) : ∀ member ∈ before ++ replacement :: after, holds member := by
  rw [List.forall_mem_append, List.forall_mem_cons] at all ⊢
  exact ⟨all.1, own, all.2.2⟩

/-- In place of an argument there may be another of the same name and type. -/
theorem Fits.replace {before after : List InputValueDefinition}
    {argument replacement : InputValueDefinition}
    (fits : schema.Fits owner (field.withArguments (before ++ argument :: after)))
    (name : replacement.name = argument.name) (type : replacement.type = argument.type)
    (writable : replacement.Writable)
    (default : ∀ literal ∈ replacement.default, literal.hasDistinctFields = true) :
    schema.Fits owner (field.withArguments (before ++ replacement :: after)) where
  valid := fits.valid
  fresh := fits.fresh
  writable :=
    { bare := fits.writable.bare
      name := fits.writable.name
      arguments := forall_mem_replace fits.writable.arguments writable
      type := fits.writable.type }
  distinct := by simpa [FieldDefinition.withArguments, name] using fits.distinct
  known := fits.known
  knownArguments := by
    apply forall_mem_replace fits.knownArguments
    rw [type]
    exact fits.knownArguments argument (by simp [FieldDefinition.withArguments])
  defaults := forall_mem_replace fits.defaults default

/-- The property of an argument has the description and the default that it is declared with. -/
theorem property_of_parameters {arguments : List InputValue}
    (avoids : ∀ argument ∈ arguments, schema.AvoidsUnusableEnums argument.type)
    (distinct : (arguments.map (·.name)).Nodup) {argument : InputValue}
    (member : argument ∈ arguments) {description : String}
    (described : argument.description = some description) (nonempty : description ≠ "")
    {default : Json} (given : argument.default = some default) :
    ∃ json members property,
      (schema.parameters arguments).toJson = .ok json ∧
      json.member? "properties" = some (.obj members) ∧
      members.lookup argument.name = some property ∧
      property.member? "description" = some (.str description) ∧
      property.member? "default" = some default := by
  obtain ⟨json, ok⟩ := isDefined_parameters_iff.mpr avoids
  obtain ⟨members, property, properties, found, descriptionOk, defaultOk⟩ :=
    Parameter.property_of_objectOf ok distinct member
  refine ⟨json, members, property, ok, properties, found, ?_, ?_⟩
  · rw [descriptionOk]
    simp [Notes.attach, described, nonemptyDescription, nonempty]
  · rw [defaultOk]
    simp [Notes.attach, given]

/-- In the schema of the longer text the argument has a property with its description, and with what
its literal stands for as the default. -/
theorem property_of_above {rest : String} (accepted : ofSource rest = .ok schema)
    (fits : schema.Fits owner field) (shallow : field.IsShallow)
    (avoids : ∀ argument ∈ field.arguments, schema.AvoidsUnusableEnums argument.type)
    {argument : InputValueDefinition} (member : argument ∈ field.arguments) {description : String}
    (described : argument.description = some description) (nonempty : description ≠ "")
    {literal : Literal} (given : argument.default = some literal) :
    ∃ extended declared json members property,
      ofSource (field.above owner rest) = .ok extended ∧
      extended.fields? owner = some [declared] ∧ declared.name = field.name ∧
      (extended.parameters declared.arguments).toJson = .ok json ∧
      json.member? "properties" = some (.obj members) ∧
      members.lookup argument.name = some property ∧
      property.member? "description" = some (.str description) ∧
      property.member? "default" = some literal.toJson := by
  obtain ⟨extended, extendedOk, object, others⟩ := ofSource_above accepted fits shallow
  have usable : ∀ value ∈ (Field.ofDefinition field).arguments,
      extended.AvoidsUnusableEnums value.type := by
    rw [Field.ofDefinition, List.forall_mem_map]
    intro value declared
    exact avoidsUnusableEnums_of_object object others (avoids value declared)
  have names : ((Field.ofDefinition field).arguments.map (·.name)).Nodup := by
    rw [Field.ofDefinition, List.map_map]
    exact fits.distinct
  have declared : InputValue.ofDefinition argument ∈ (Field.ofDefinition field).arguments :=
    List.mem_map_of_mem member
  have default : (InputValue.ofDefinition argument).default = some literal.toJson := by
    rw [InputValue.ofDefinition, given, Option.map_some]
  obtain ⟨json, members, property, ok, properties, found, descriptionOk, defaultOk⟩ :=
    property_of_parameters usable names declared described nonempty default
  refine ⟨extended, Field.ofDefinition field, json, members, property, extendedOk, ?_, rfl, ok,
    properties, found, descriptionOk, defaultOk⟩
  rw [fields?, object]
  rfl

theorem isShallow_withNotes {before after : List InputValueDefinition}
    {argument : InputValueDefinition} {description : String} {literal : Literal}
    (shallow : field.type.nesting ≤ maxDepth ∧ ∀ other ∈ before ++ after, other.IsShallow) :
    (field.withArguments (before ++ argument.withNotes description literal :: after)).IsShallow ↔
      argument.type.nesting ≤ maxDepth ∧ (literal.tree.map Lexeme.token).depth ≤ maxDepth := by
  have own : (argument.withNotes description literal).IsShallow ↔
      argument.type.nesting ≤ maxDepth ∧ (literal.tree.map Lexeme.token).depth ≤ maxDepth := by
    simp [InputValueDefinition.IsShallow, InputValueDefinition.withNotes]
  rw [← own]
  constructor
  · intro all
    exact all.1 _ (by simp [FieldDefinition.withArguments])
  · intro replaced
    refine ⟨?_, shallow.1⟩
    have others := List.forall_mem_append.mp shallow.2
    exact List.forall_mem_append.mpr
      ⟨others.1, List.forall_mem_cons.mpr ⟨replaced, others.2⟩⟩

/-- A field with one argument, which has a description and a default. -/
def sampleField (type : TypeRef) (default : Literal) : FieldDefinition :=
  ⟨none, "f", [⟨some "d", "a", type, some default, []⟩], .named "Int" false, []⟩

theorem writable_sampleField {type : TypeRef} {default : Literal}
    (valid : isName type.typeName = true) (wellFormed : default.WellFormed) :
    (sampleField type default).Writable := by
  have field : isName "f" = true := by decide
  have returns : isName "Int" = true := by decide
  have argument : isName "a" = true := by decide
  refine ⟨rfl, field, ?_, returns⟩
  rw [sampleField, List.forall_mem_singleton]
  exact ⟨rfl, argument, valid, by simpa using wellFormed⟩

theorem isShallow_sampleField_iff {type : TypeRef} {default : Literal} :
    (sampleField type default).IsShallow ↔
      type.nesting ≤ maxDepth ∧ (default.tree.map Lexeme.token).depth ≤ maxDepth := by
  simp [sampleField, FieldDefinition.IsShallow, InputValueDefinition.IsShallow, TypeRef.nesting]

theorem ofSource_sampleField_deep {rest : String} (accepted : ofSource rest = .ok schema)
    {type : TypeRef} {default : Literal} (valid : isName type.typeName = true)
    (wellFormed : default.WellFormed)
    (deep : ¬ (type.nesting ≤ maxDepth ∧ (default.tree.map Lexeme.token).depth ≤ maxDepth)) :
    ∀ extended, ofSource ((sampleField type default).above "Query" rest) ≠ .ok extended := by
  have refused := ofSource_above_deep accepted (by decide : isName "Query" = true)
    (writable_sampleField valid wellFormed) (mt isShallow_sampleField_iff.mp deep)
  intro extended
  rw [refused]
  simp

/-- An argument of an enum without usable values can be declared, but has no property. -/
theorem sampleField_without_property {rest : String} (accepted : ofSource rest = .ok schema)
    (fresh : schema.kind? "Query" = none) (known : (schema.kind? "Int").isSome) {enum : String}
    (valid : isName enum = true) (found : schema.kind? enum = some (.enum none)) :
    ∃ extended declared,
      ofSource ((sampleField (.named enum false) .null).above "Query" rest) = .ok extended ∧
      extended.fields? "Query" = some [declared] ∧
      ∀ json, (extended.parameters declared.arguments).toJson ≠ .ok json := by
  have fits : schema.Fits "Query" (sampleField (.named enum false) .null) :=
    { valid := by decide
      fresh
      writable := writable_sampleField valid .null
      distinct := List.nodup_singleton "a"
      known
      knownArguments := by simp [sampleField, TypeRef.typeName, found]
      defaults := by simp [sampleField, Literal.hasDistinctFields] }
  have shallow : (sampleField (.named enum false) .null).IsShallow := by
    rw [isShallow_sampleField_iff]
    simp [TypeRef.nesting, Literal.tree, Tree.map, Tree.depth]
  have different : "Query" ≠ enum := by
    rintro rfl
    rw [fresh] at found
    contradiction
  obtain ⟨extended, ok, object, others⟩ := ofSource_above accepted fits shallow
  refine ⟨extended, _, ok, by rw [fields?, object]; rfl, ?_⟩
  intro json jsonOk
  have avoids := isDefined_parameters_iff.mp ⟨json, jsonOk⟩ _ List.mem_cons_self
  exact avoids enum .refl ((others enum different).trans found)

end Schema

end Toolsmith.GraphQL

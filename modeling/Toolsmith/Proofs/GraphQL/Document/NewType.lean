import Mathlib.Data.List.Basic
import Toolsmith.GraphQL.Schema.OfDocument

/-!
A document with one more object type. The type is new and has neither interfaces nor directives, so
every rule that the document keeps is kept by the longer document, and all other types stay what
they are.
-/

set_option autoImplicit false

namespace Toolsmith.GraphQL

def TypeDeclaration.ofFields (name : String) (fields : List FieldDefinition) : TypeDeclaration :=
  { name, directives := [], body := .object [] fields }

namespace Document

variable {document : Document} {name : String} {fields : List FieldDefinition}

/-- The document with an object type in front. -/
abbrev withType (document : Document) (name : String) (fields : List FieldDefinition) : Document :=
  .type none (.ofFields name fields) :: document

/-- A name that a document may refer to. -/
def Knows (document : Document) (name : String) : Prop :=
  name ∈ BuiltIn.typeNames ∨ name ∈ document.typeDefinitions.map (·.name)

/-- An object type that can be added: its name is new, it refers to known types, and nothing in it
is declared twice or has directives. -/
structure Admits (document : Document) (name : String) (fields : List FieldDefinition) : Prop where
  fresh : name ∉ document.typeDefinitions.map (·.name)
  distinctFields : (fields.map (·.name)).Nodup
  distinctArguments : ∀ field ∈ fields, (field.arguments.map (·.name)).Nodup
  bareFields : ∀ field ∈ fields, field.directives = []
  bareArguments : ∀ field ∈ fields, ∀ argument ∈ field.arguments, argument.directives = []
  knownFields : ∀ field ∈ fields, document.Knows field.type.typeName
  knownArguments : ∀ field ∈ fields, ∀ argument ∈ field.arguments,
    document.Knows argument.type.typeName
  defaults : ∀ field ∈ fields, ∀ argument ∈ field.arguments, ∀ literal ∈ argument.default,
    literal.hasDistinctFields = true

/-! What the longer document declares. -/

theorem typeDeclarations_withType :
    (document.withType name fields).typeDeclarations =
      .ofFields name fields :: document.typeDeclarations :=
  rfl

theorem typeDefinitions_withType :
    (document.withType name fields).typeDefinitions =
      .ofFields name fields :: document.typeDefinitions :=
  rfl

theorem argumentLists_withType :
    (document.withType name fields).argumentLists =
      fields.map (·.arguments) ++ document.argumentLists := by
  rw [argumentLists, argumentLists, typeDeclarations_withType, List.flatMap_cons, List.append_assoc]
  rfl

/-- An extension of a type stands for a definition of it, so the new name is new altogether. -/
theorem name_ne_of_fresh (valid : document.ExtendsDefinedTypes)
    (fresh : name ∉ document.typeDefinitions.map (·.name)) :
    ∀ declared ∈ document.typeDeclarations, declared.name ≠ name := by
  intro declared member same
  rcases List.mem_append.mp member with defined | extended
  · exact fresh (List.mem_map.mpr ⟨declared, defined, same⟩)
  · obtain ⟨definition, defined, named, _⟩ := valid declared extended
    exact fresh (List.mem_map.mpr ⟨definition, defined, named.trans same⟩)

theorem declarationsOf_new (valid : document.ExtendsDefinedTypes)
    (fresh : name ∉ document.typeDefinitions.map (·.name)) :
    (document.withType name fields).declarationsOf name = [.ofFields name fields] := by
  have others : document.typeDeclarations.filter (·.name = name) = [] := by
    rw [List.filter_eq_nil_iff]
    intro declared member
    simpa using name_ne_of_fresh valid fresh declared member
  rw [declarationsOf, typeDeclarations_withType, List.filter_cons_of_pos, others]
  simp [TypeDeclaration.ofFields]

theorem declarationsOf_other {other : String} (different : name ≠ other) :
    (document.withType name fields).declarationsOf other = document.declarationsOf other := by
  rw [declarationsOf, typeDeclarations_withType, List.filter_cons_of_neg]
  · rfl
  · simp [TypeDeclaration.ofFields, different]

/-- What holds of all that is said about the new type and about each other type holds throughout. -/
theorem forall_declarationsOf_withType (valid : document.ExtendsDefinedTypes)
    (fresh : name ∉ document.typeDefinitions.map (·.name))
    (holds : List TypeDeclaration → Prop) (own : holds [.ofFields name fields])
    (others : ∀ declared ∈ document.typeDeclarations,
      holds (document.declarationsOf declared.name)) :
    ∀ declared ∈ (document.withType name fields).typeDeclarations,
      holds ((document.withType name fields).declarationsOf declared.name) := by
  rw [typeDeclarations_withType, List.forall_mem_cons]
  constructor
  · rw [TypeDeclaration.ofFields, declarationsOf_new valid fresh]
    exact own
  · intro declared member
    rw [declarationsOf_other (name_ne_of_fresh valid fresh declared member).symm]
    exact others declared member

/-! What the longer document refers to. -/

theorem knows_withType {other : String} (known : document.Knows other) :
    (document.withType name fields).Knows other := by
  rcases known with builtIn | defined
  · exact .inl builtIn
  · exact .inr (List.mem_cons_of_mem name defined)

theorem mem_inputValues_withType {value : InputValueDefinition} :
    value ∈ (document.withType name fields).inputValues ↔
      (∃ field ∈ fields, value ∈ field.arguments) ∨ value ∈ document.inputValues := by
  simp only [inputValues, argumentLists_withType, typeDeclarations_withType, List.mem_append,
    List.flatten_append, List.flatMap_cons, List.mem_flatten, List.mem_map,
    TypeDeclaration.ofFields, TypeBody.inputFields, List.not_mem_nil, false_or]
  constructor
  · rintro ((⟨_, ⟨field, member, rfl⟩, included⟩ | argument) | input)
    · exact .inl ⟨field, member, included⟩
    · exact .inr (.inl argument)
    · exact .inr (.inr input)
  · rintro (⟨field, member, included⟩ | argument | input)
    · exact .inl (.inl ⟨_, ⟨field, member, rfl⟩, included⟩)
    · exact .inl (.inr argument)
    · exact .inr input

theorem refersToKnownTypes_withType (refers : document.RefersToKnownTypes)
    (admits : document.Admits name fields) :
    (document.withType name fields).RefersToKnownTypes := by
  intro other referred
  apply knows_withType
  simp only [typeReferences, List.mem_append, List.mem_map, mem_inputValues_withType,
    typeDeclarations_withType, List.flatMap_cons] at referred
  rcases referred with (⟨value, ⟨field, member, included⟩ | declared, rfl⟩ | own | output) | root
  · exact admits.knownArguments field member value included
  · apply refers
    simp only [typeReferences, List.mem_append, List.mem_map]
    exact .inl (.inl ⟨value, declared, rfl⟩)
  · simp only [TypeDeclaration.ofFields, TypeBody.outputFields, TypeBody.interfaces,
      TypeBody.members, List.not_mem_nil, or_false] at own
    obtain ⟨field, member, rfl⟩ := own
    exact admits.knownFields field member
  · apply refers
    exact List.mem_append_left _ (List.mem_append_right _ output)
  · apply refers
    exact List.mem_append_right _ (List.mem_map.mpr root)

/-! Where the longer document applies directives. -/

theorem bare_fieldSites (admits : document.Admits name fields) :
    ∀ site ∈ fieldSites (.object [] fields), site.directives = [] := by
  intro site member
  simp only [fieldSites, argumentSites, TypeBody.outputFields, TypeBody.inputFields,
    List.map_nil, List.append_nil, List.mem_flatMap, List.mem_cons, List.mem_map] at member
  obtain ⟨field, declared, rfl | ⟨argument, included, rfl⟩⟩ := member
  · exact admits.bareFields field declared
  · exact admits.bareArguments field declared argument included

theorem mem_innerSites_withType (admits : document.Admits name fields) {site : DirectiveSite}
    (member : site ∈ (document.withType name fields).innerSites) :
    site.directives = [] ∨ site ∈ document.innerSites := by
  rw [innerSites, typeDeclarations_withType, List.flatMap_cons, List.append_assoc] at member
  rcases List.mem_append.mp member with own | other
  · rcases List.mem_append.mp own with atField | atValue
    · exact .inl (bare_fieldSites admits site atField)
    · contradiction
  · exact .inr other

theorem mem_sites_withType (admits : document.Admits name fields) {site : DirectiveSite}
    (member : site ∈ (document.withType name fields).sites) :
    site.directives = [] ∨ site ∈ document.sites := by
  simp only [sites, typeDeclarations_withType, List.map_cons, List.mem_append, List.mem_cons]
    at member ⊢
  rcases member with (schema | rfl | type) | inner
  · exact .inr (.inl (.inl schema))
  · exact .inl rfl
  · exact .inr (.inl (.inr type))
  · rcases mem_innerSites_withType admits inner with bare | inner
    · exact .inl bare
    · exact .inr (.inr inner)

theorem repeatsOnlyRepeatable_withType (defined : document.ExtendsDefinedTypes)
    (repeats : document.RepeatsOnlyRepeatable) (admits : document.Admits name fields) :
    (document.withType name fields).RepeatsOnlyRepeatable := by
  -- The groups of types are the ones that depend on what else is said about a type.
  have own : ((([TypeDeclaration.ofFields name fields].flatMap (·.directives)).map
      (·.name)).filter fun applied =>
        !((document.directive? applied).any (·.repeatable))).Nodup := by
    simp [TypeDeclaration.ofFields]
  have ofTypes := forall_declarationsOf_withType defined admits.fresh
    (fun declarations =>
      (((declarations.flatMap (·.directives)).map (·.name)).filter fun applied =>
        !((document.directive? applied).any (·.repeatable))).Nodup) own
    (fun declared member => repeats _
      (List.mem_append_left _ (List.mem_cons_of_mem _ (List.mem_map_of_mem member))))
  intro group member
  rw [directiveGroups] at member
  rcases List.mem_append.mp member with outer | inner
  · rcases List.mem_cons.mp outer with rfl | ofType
    · exact repeats _ (List.mem_append_left _ List.mem_cons_self)
    · obtain ⟨declared, included, rfl⟩ := List.mem_map.mp ofType
      exact ofTypes declared included
  · obtain ⟨site, included, rfl⟩ := List.mem_map.mp inner
    rcases mem_innerSites_withType admits included with bare | known
    · simp [bare]
    · exact repeats _ (List.mem_append_right _ (List.mem_map_of_mem known))

theorem appliesDirectives_withType (applies : document.AppliesDirectives)
    (admits : document.Admits name fields) :
    (document.withType name fields).AppliesDirectives := by
  intro site member
  rcases mem_sites_withType admits member with bare | known
  · simp [bare]
  · exact applies site known

theorem hasDistinctLiteralFields_withType (distinct : document.HasDistinctLiteralFields)
    (admits : document.Admits name fields) :
    (document.withType name fields).HasDistinctLiteralFields := by
  intro literal member
  rw [literals] at member
  rcases List.mem_append.mp member with default | applied
  · obtain ⟨value, declared, given⟩ := List.mem_filterMap.mp default
    rcases mem_inputValues_withType.mp declared with ⟨field, own, included⟩ | known
    · exact admits.defaults field own value included literal given
    · exact distinct literal
        (List.mem_append_left _ (List.mem_filterMap.mpr ⟨value, known, given⟩))
  · simp only [List.mem_flatMap] at applied
    obtain ⟨directive, ⟨site, included, present⟩, argument⟩ := applied
    rcases mem_sites_withType admits included with bare | known
    · rw [bare] at present
      contradiction
    · apply distinct
      refine List.mem_append_right _ (List.mem_flatMap.mpr ⟨directive, ?_, argument⟩)
      exact List.mem_flatMap.mpr ⟨site, known, present⟩

theorem givesReasons_withType (gives : document.GivesReasons)
    (admits : document.Admits name fields) :
    (document.withType name fields).GivesReasons := by
  intro site member
  rw [reasonSites, effectiveDeclarations, typeDeclarations_withType, List.filter_cons] at member
  split at member
  · rw [List.flatMap_cons, List.append_assoc] at member
    rcases List.mem_append.mp member with own | known
    · rw [bare_fieldSites admits site own]
      rfl
    · exact gives site known
  · exact gives site member

theorem givesAddresses_withType (gives : document.GivesAddresses) :
    (document.withType name fields).GivesAddresses := by
  intro declared member
  rw [effectiveDeclarations, typeDeclarations_withType] at member
  obtain ⟨included, effective⟩ := List.mem_filter.mp member
  rcases List.mem_cons.mp included with rfl | known
  · intro scalar
    contradiction
  · exact gives declared (List.mem_filter.mpr ⟨known, effective⟩)

/-- The rules are kept. -/
theorem valid_withType (valid : document.Valid) (admits : document.Admits name fields) :
    (document.withType name fields).Valid := by
  obtain ⟨oneSchema, roots, types, fieldNames, enumValues, arguments, directives, extensions,
    references, repeats, applies, literals, reasons, addresses⟩ := valid
  refine ⟨oneSchema, roots, ?_, ?_, ?_, ?_, directives, ?_,
    refersToKnownTypes_withType references admits,
    repeatsOnlyRepeatable_withType extensions repeats admits,
    appliesDirectives_withType applies admits, hasDistinctLiteralFields_withType literals admits,
    givesReasons_withType reasons admits, givesAddresses_withType addresses⟩
  · rw [HasDistinctTypes, typeDefinitions_withType, List.map_cons, List.nodup_cons]
    exact ⟨admits.fresh, types⟩
  · refine forall_declarationsOf_withType extensions admits.fresh
      (fun declarations => (declarations.flatMap (·.body.fieldNames)).Nodup) ?_ fieldNames
    simpa [TypeDeclaration.ofFields, TypeBody.fieldNames, TypeBody.outputFields,
      TypeBody.inputFields] using admits.distinctFields
  · refine forall_declarationsOf_withType extensions admits.fresh
      (fun declarations =>
        (declarations.flatMap fun declared => declared.body.enumValues.map (·.name)).Nodup)
      ?_ enumValues
    simp [TypeDeclaration.ofFields, TypeBody.enumValues]
  · intro list member
    rw [argumentLists_withType] at member
    rcases List.mem_append.mp member with own | known
    · obtain ⟨field, declared, rfl⟩ := List.mem_map.mp own
      exact admits.distinctArguments field declared
    · exact arguments list known
  · intro extended member
    obtain ⟨definition, defined, same⟩ := extensions extended member
    exact ⟨definition, List.mem_cons_of_mem _ defined, same⟩

/-! The schema of the longer document. -/

/-- The types of a schema are those that its document may refer to. -/
theorem isSome_kind?_iff {other : String} :
    (document.schema.kind? other).isSome ↔ document.Knows other := by
  have listed : (document.schema.kind? other).isSome ↔
      ∃ type ∈ BuiltIn.types ++ document.definedTypes, type.name = other := by
    simp [Schema.kind?, Schema.type?, schema, or_and_right, exists_or]
  rw [listed, Knows, BuiltIn.typeNames]
  simp only [List.mem_append, List.mem_map]
  constructor
  · rintro ⟨type, builtIn | defined, rfl⟩
    · exact .inl ⟨type, builtIn, rfl⟩
    · obtain ⟨description, declaration, member, _, rfl⟩ := mem_definedTypes.mp defined
      exact .inr ⟨declaration, mem_typeDefinitions.mpr ⟨description, member⟩, rfl⟩
  · rintro (⟨type, builtIn, named⟩ | ⟨declaration, declared, rfl⟩)
    · exact ⟨type, .inl builtIn, named⟩
    · by_cases custom : declaration.name ∈ BuiltIn.typeNames
      · obtain ⟨type, builtIn, named⟩ := List.mem_map.mp custom
        exact ⟨type, .inl builtIn, named⟩
      · obtain ⟨description, member⟩ := mem_typeDefinitions.mp declared
        have defined := mem_definedTypes.mpr ⟨description, declaration, member, custom, rfl⟩
        exact ⟨_, .inr defined, rfl⟩

theorem definedTypes_withType (defined : document.ExtendsDefinedTypes)
    (fresh : name ∉ document.typeDefinitions.map (·.name)) (custom : name ∉ BuiltIn.typeNames) :
    (document.withType name fields).definedTypes =
      ⟨name, none, .object (fields.map Field.ofDefinition)⟩ :: document.definedTypes := by
  rw [definedTypes, List.filterMap_cons_some]
  · rw [definedTypes, List.cons_inj_right]
    apply List.filterMap_congr
    intro definition member
    cases definition with
    | type description declaration =>
        have declared : declaration ∈ document.typeDeclarations :=
          List.mem_append_left _ (mem_typeDefinitions.mpr ⟨description, member⟩)
        have different := name_ne_of_fresh defined fresh declaration declared
        simp only [declarationsOf_other different.symm]
    | _ => rfl
  · have own : (document.withType name fields).declarationsOf name = [.ofFields name fields] :=
      declarationsOf_new defined fresh
    have custom : (TypeDeclaration.ofFields name fields).name ∉ BuiltIn.typeNames := custom
    dsimp only
    rw [if_neg custom, TypeDeclaration.ofFields, own]
    simp [TypeDeclaration.ofFields, TypeKind.ofBodies, TypeBody.outputFields]

/-- The new type is found under its name. -/
theorem kind?_withType_new (defined : document.ExtendsDefinedTypes)
    (fresh : name ∉ document.typeDefinitions.map (·.name)) (custom : name ∉ BuiltIn.typeNames) :
    (document.withType name fields).schema.kind? name =
      some (.object (fields.map Field.ofDefinition)) := by
  have noBuiltIn : BuiltIn.types.find? (·.name = name) = none := by
    rw [List.find?_eq_none]
    intro type member
    simp only [decide_eq_true_eq]
    rintro rfl
    exact custom (List.mem_map_of_mem member)
  rw [Schema.kind?, Schema.type?, schema, definedTypes_withType defined fresh custom,
    List.find?_append, noBuiltIn]
  simp

/-- All other names mean what they meant. -/
theorem kind?_withType_other (defined : document.ExtendsDefinedTypes)
    (fresh : name ∉ document.typeDefinitions.map (·.name)) (custom : name ∉ BuiltIn.typeNames)
    {other : String} (different : name ≠ other) :
    (document.withType name fields).schema.kind? other = document.schema.kind? other := by
  rw [Schema.kind?, Schema.kind?, Schema.type?, Schema.type?, schema, schema,
    definedTypes_withType defined fresh custom, List.find?_append, List.find?_append,
    List.find?_cons_of_neg]
  simpa using different

end Document

end Toolsmith.GraphQL

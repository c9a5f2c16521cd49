import Toolsmith.Proofs.GraphQL.Document.NewType
import Toolsmith.Proofs.GraphQL.Schema.Declarations

/-!
Accepted schemas are closed. What they declare is declared once, whatever definition or extension it
comes from, and what they refer to is a type of the document or one that is built in.
-/

set_option autoImplicit false

namespace Toolsmith.GraphQL

/-- The usable values of an enum. -/
def TypeKind.values : TypeKind → List String
  | .enum (some values) => values
  | _ => []

/-- No two members of a kind have one name: no two fields, no two arguments of one field, and no two
values. -/
structure TypeKind.IsDistinct (kind : TypeKind) : Prop where
  fields : kind.fieldNames.Nodup
  arguments : ∀ fields ∈ kind.fields?, ∀ field ∈ fields, (field.arguments.map (·.name)).Nodup
  values : kind.values.Nodup

namespace Schema

/-- A name is the name of a type. -/
abbrev Resolves (schema : Schema) (name : String) : Prop :=
  (schema.type? name).isSome

/-- All that is declared has a name and is declared once, and all that is referred to is there. -/
structure IsClosed (schema : Schema) : Prop where
  distinctTypes : (schema.types.map (·.name)).Nodup
  distinctMembers : ∀ definition ∈ schema.types, definition.kind.IsDistinct
  named : schema.IsNamed
  references : ∀ definition ∈ schema.types, ∀ name ∈ definition.kind.references,
    schema.Resolves name
  roots : ∀ kind root, schema.root? kind = some root → schema.Resolves root

end Schema

/-! Built-in types. -/

theorem isDistinct_builtIn : ∀ definition ∈ BuiltIn.types, definition.kind.IsDistinct := by
  have checked : ∀ definition ∈ BuiltIn.types, definition.kind.fieldNames.Nodup ∧
      (∀ fields ∈ definition.kind.fields?, ∀ field ∈ fields,
        (field.arguments.map (·.name)).Nodup) ∧ definition.kind.values.Nodup := by
    decide +kernel
  intro definition member
  obtain ⟨fields, arguments, values⟩ := checked definition member
  exact ⟨fields, arguments, values⟩

theorem references_builtIn :
    ∀ definition ∈ BuiltIn.types, ∀ name ∈ definition.kind.references,
      name ∈ BuiltIn.typeNames := by
  decide +kernel

theorem nodup_typeNames_builtIn : BuiltIn.typeNames.Nodup := by
  decide +kernel

namespace Document

variable {document : Document}

/-! Distinct names. -/

/-- The types of a schema that are not built in are defined in the document, in the same order. -/
theorem names_definedTypes_sublist (document : Document) :
    (document.definedTypes.map (·.name)).Sublist (document.typeDefinitions.map (·.name)) := by
  have each : ∀ definitions : List Definition,
      ((definitions.filterMap document.definedType?).map (·.name)).Sublist
        ((typeDefinitions definitions).map (·.name)) := by
    intro definitions
    induction definitions with
    | nil => exact .slnil
    | cons definition rest inductionHypothesis =>
        cases definition with
        | type description declaration =>
            by_cases builtIn : declaration.name ∈ BuiltIn.typeNames
            · have skipped : document.definedType? (.type description declaration) = none :=
                if_pos builtIn
              rw [List.filterMap_cons_none skipped]
              exact inductionHypothesis.cons _
            · have kept : document.definedType? (.type description declaration) =
                  some (document.typeOf description declaration) := if_neg builtIn
              rw [List.filterMap_cons_some kept]
              exact inductionHypothesis.cons_cons _
        | _ => exact inductionHypothesis
  exact each document

theorem nodup_names_schema (distinct : document.HasDistinctTypes) :
    (document.schema.types.map (·.name)).Nodup := by
  rw [schema, List.map_append, List.nodup_append]
  refine ⟨nodup_typeNames_builtIn, (names_definedTypes_sublist document).nodup distinct, ?_⟩
  rintro name builtIn other defined rfl
  obtain ⟨definition, member, rfl⟩ := List.mem_map.mp defined
  obtain ⟨_, _, _, notBuiltIn, _⟩ := exists_declaration_of_mem_definedTypes member
  exact notBuiltIn builtIn

theorem exists_outputField {body : TypeBody} {declarations : List TypeDeclaration}
    {fields : List Field} {field : Field}
    (found : (TypeKind.ofBodies body (declarations.map (·.body))).fields? = some fields)
    (member : field ∈ fields) :
    ∃ declared ∈ declarations, ∃ definition ∈ declared.body.outputFields,
      Field.ofDefinition definition = field := by
  have same : fields =
      ((declarations.map (·.body)).flatMap TypeBody.outputFields).map Field.ofDefinition := by
    cases body with
    | object => exact (Option.some.inj found).symm
    | interface => exact (Option.some.inj found).symm
    | _ => contradiction
  subst same
  simp only [List.mem_map, List.mem_flatMap] at member
  obtain ⟨definition, ⟨_, ⟨declared, included, rfl⟩, own⟩, rfl⟩ := member
  exact ⟨declared, included, definition, own, rfl⟩

theorem values_ofBodies_sublist (body : TypeBody) (declarations : List TypeDeclaration) :
    (TypeKind.ofBodies body (declarations.map (·.body))).values.Sublist
      (declarations.flatMap fun declared => declared.body.enumValues.map (·.name)) := by
  cases body with
  | enum values =>
      simp only [TypeKind.ofBodies, enumValuesOf?]
      split
      · rw [TypeKind.values, List.flatMap_map, List.map_flatMap]
      · exact List.nil_sublist _
  | _ => exact List.nil_sublist _

theorem isDistinct_schema (fields : document.HasDistinctFields)
    (enumValues : document.HasDistinctEnumValues) (arguments : document.HasDistinctArguments) :
    ∀ definition ∈ document.schema.types, definition.kind.IsDistinct := by
  intro definition member
  refine ⟨declaresOnce_schema fields definition member, ?_, ?_⟩
  all_goals rcases List.mem_append.mp member with builtIn | defined
  · exact (isDistinct_builtIn definition builtIn).arguments
  · obtain ⟨declaration, _, _, _, kind⟩ := exists_declaration_of_mem_definedTypes defined
    rw [kind]
    intro fields found field included
    obtain ⟨declared, said, definition, own, rfl⟩ := exists_outputField found included
    have listed : definition.arguments ∈ document.argumentLists := by
      apply List.mem_append_left
      apply List.mem_flatMap.mpr
      exact ⟨declared, List.mem_of_mem_filter said, List.mem_map_of_mem own⟩
    simpa [Field.ofDefinition, Function.comp_def, InputValue.ofDefinition] using
      arguments _ listed
  · exact (isDistinct_builtIn definition builtIn).values
  · obtain ⟨declaration, declared, named, _, kind⟩ := exists_declaration_of_mem_definedTypes defined
    have own := enumValues declaration (List.mem_append_left _ declared)
    rw [named] at own
    rw [kind]
    exact (values_ofBodies_sublist _ _).nodup own

/-! Known types. -/

theorem resolves_iff {name : String} : document.schema.Resolves name ↔ document.Knows name := by
  rw [← isSome_kind?_iff, Schema.kind?, Option.isSome_map]

theorem resolves_of_mem_typeReferences (refers : document.RefersToKnownTypes) {name : String}
    (referred : name ∈ document.typeReferences) : document.schema.Resolves name :=
  resolves_iff.mpr (refers name referred)

theorem typeName_mem_typeReferences {value : InputValueDefinition}
    (declared : value ∈ document.inputValues) :
    value.type.typeName ∈ document.typeReferences := by
  rw [typeReferences, List.append_assoc]
  exact List.mem_append_left _ (List.mem_map.mpr ⟨value, declared, rfl⟩)

/-- What a type refers to in the end, one of its declarations refers to. -/
theorem references_ofBodies {body : TypeBody} {declarations : List TypeDeclaration}
    (included : ∀ declared ∈ declarations, declared ∈ document.typeDeclarations) {name : String}
    (referred : name ∈ (TypeKind.ofBodies body (declarations.map (·.body))).references) :
    name ∈ document.typeReferences := by
  have ofOutputs : ∀ fields, (TypeKind.ofBodies body (declarations.map (·.body))).fields? =
      some fields → name ∈ fields.flatMap Field.references → name ∈ document.typeReferences := by
    intro fields found referred
    obtain ⟨field, member, own⟩ := List.mem_flatMap.mp referred
    obtain ⟨declared, said, definition, declaredField, rfl⟩ := exists_outputField found member
    rcases List.mem_cons.mp own with rfl | argument
    · apply List.mem_append_left
      apply List.mem_append_right
      apply List.mem_flatMap.mpr
      refine ⟨declared, included declared said, ?_⟩
      apply List.mem_append_left
      exact List.mem_append_left _ (List.mem_map.mpr ⟨definition, declaredField, rfl⟩)
    · simp only [Field.ofDefinition, List.map_map, List.mem_map] at argument
      obtain ⟨value, declaredValue, rfl⟩ := argument
      apply typeName_mem_typeReferences
      apply List.mem_append_left
      refine List.mem_flatten.mpr ⟨definition.arguments, ?_, declaredValue⟩
      apply List.mem_append_left
      apply List.mem_flatMap.mpr
      exact ⟨declared, included declared said, List.mem_map_of_mem declaredField⟩
  cases body with
  | object => exact ofOutputs _ rfl referred
  | interface => exact ofOutputs _ rfl referred
  | input =>
      simp only [TypeKind.ofBodies, TypeKind.references, List.map_map, List.mem_map,
        List.mem_flatMap] at referred
      obtain ⟨value, ⟨_, ⟨declared, said, rfl⟩, own⟩, rfl⟩ := referred
      apply typeName_mem_typeReferences
      apply List.mem_append_right
      exact List.mem_flatMap.mpr ⟨declared, included declared said, own⟩
  | _ => contradiction

theorem references_schema (refers : document.RefersToKnownTypes) :
    ∀ definition ∈ document.schema.types, ∀ name ∈ definition.kind.references,
      document.schema.Resolves name := by
  intro definition member name referred
  rcases List.mem_append.mp member with builtIn | defined
  · exact resolves_iff.mpr (.inl (references_builtIn definition builtIn name referred))
  · obtain ⟨declaration, _, _, _, kind⟩ := exists_declaration_of_mem_definedTypes defined
    rw [kind] at referred
    apply resolves_of_mem_typeReferences refers
    exact references_ofBodies (fun declared => List.mem_of_mem_filter) referred

theorem roots_schema (refers : document.RefersToKnownTypes) :
    ∀ kind root, document.schema.root? kind = some root → document.schema.Resolves root := by
  have each : ∀ operation usual root, document.root? operation usual = some root →
      document.schema.Resolves root := by
    intro operation usual root rooted
    unfold root? at rooted
    split at rooted
    · rename_i implicit
      obtain rfl := Option.some.inj rooted
      exact resolves_iff.mpr (.inr implicit.2)
    · obtain ⟨before, after, same, _⟩ := List.lookup_eq_some_iff.mp rooted
      apply resolves_of_mem_typeReferences refers
      apply List.mem_append_right
      exact List.mem_map.mpr ⟨(operation, root), by simp [same], rfl⟩
  intro kind root rooted
  cases kind with
  | query => exact each _ _ root rooted
  | mutation => exact each _ _ root rooted

theorem isClosed_schema (valid : document.Valid)
    (named : ∀ definition ∈ document, definition.IsNamed) : document.schema.IsClosed := by
  obtain ⟨_, _, types, fields, enumValues, arguments, _, _, refers, _⟩ := valid
  exact ⟨nodup_names_schema types, isDistinct_schema fields enumValues arguments,
    isNamed_schema named, references_schema refers, roots_schema refers⟩

end Document

namespace Schema

variable {schema : Schema}

theorem isClosed_ofSource {source : String} (accepted : ofSource source = .ok schema) :
    schema.IsClosed := by
  obtain ⟨document, read, valid, rfl⟩ := ofSource_eq_ok_iff.mp accepted
  exact document.isClosed_schema valid (isNamed_of_read? read)

/-- References lead from types to types. -/
theorem IsClosed.resolves_of_dependsOn (closed : schema.IsClosed) {source target : String}
    (resolves : schema.Resolves source) (depends : schema.DependsOn source target) :
    schema.Resolves target := by
  induction depends with
  | refl => exact resolves
  | tail _ step _ =>
      obtain ⟨kind, found, referred⟩ := step
      obtain ⟨definition, type, rfl⟩ := Option.map_eq_some_iff.mp found
      exact closed.references definition (List.mem_of_find?_eq_some type) _ referred

end Schema

end Toolsmith.GraphQL

import Toolsmith.GraphQL.Schema.OfDocument
import Toolsmith.Proofs.GraphQL.Names

/-!
The names in a schema are names: those it takes from a document, and those that are built in.
-/

set_option autoImplicit false

namespace Toolsmith.GraphQL

/-- The default has names for the keys of its objects. -/
def InputValue.IsNamed (value : InputValue) : Prop :=
  isName value.name = true ∧ ∀ default ∈ value.default, default.hasNames = true

instance (value : InputValue) : Decidable value.IsNamed :=
  inferInstanceAs (Decidable (_ ∧ ∀ default ∈ value.default, default.hasNames = true))

def Field.IsNamed (field : Field) : Prop :=
  isName field.name = true ∧ ∀ argument ∈ field.arguments, argument.IsNamed

instance (field : Field) : Decidable field.IsNamed :=
  inferInstanceAs (Decidable (_ ∧ ∀ argument ∈ field.arguments, argument.IsNamed))

def TypeKind.IsNamed : TypeKind → Prop
  | .object fields => ∀ field ∈ fields, field.IsNamed
  | .interface fields => ∀ field ∈ fields, field.IsNamed
  | .enum (some values) => ∀ name ∈ values, isName name = true
  | .input fields => ∀ field ∈ fields, field.IsNamed
  | _ => True

instance (kind : TypeKind) : Decidable kind.IsNamed := by
  unfold TypeKind.IsNamed
  split <;> infer_instance

structure TypeDefinition.IsNamed (definition : TypeDefinition) : Prop where
  name : isName definition.name = true
  kind : definition.kind.IsNamed

/-- All types, fields, arguments and enum values have names. -/
def Schema.IsNamed (schema : Schema) : Prop :=
  ∀ definition ∈ schema.types, definition.IsNamed

theorem isNamed_builtIn : ∀ definition ∈ BuiltIn.types, definition.IsNamed := by
  have checked : ∀ definition ∈ BuiltIn.types,
      isName definition.name = true ∧ definition.kind.IsNamed := by
    decide +kernel
  intro definition member
  exact ⟨(checked definition member).1, (checked definition member).2⟩

theorem InputValueDefinition.IsNamed.inputValue {definition : InputValueDefinition}
    (named : definition.IsNamed) : (InputValue.ofDefinition definition).IsNamed := by
  refine ⟨named.name, fun default member => ?_⟩
  obtain ⟨literal, declared, rfl⟩ := Option.map_eq_some_iff.mp member
  exact named.default literal declared

theorem FieldDefinition.IsNamed.field {definition : FieldDefinition} (named : definition.IsNamed) :
    (Field.ofDefinition definition).IsNamed := by
  refine ⟨named.1, fun argument member => ?_⟩
  obtain ⟨declared, included, rfl⟩ := List.mem_map.mp member
  exact (named.2 declared included).inputValue

/-- The kind of a type takes its names from the declarations of the type. -/
theorem isNamed_ofBodies {declarations : List TypeDeclaration} (body : TypeBody)
    (named : ∀ declaration ∈ declarations, declaration.IsNamed) :
    (TypeKind.ofBodies body (declarations.map (·.body))).IsNamed := by
  have outputs : ∀ field ∈ ((declarations.map (·.body)).flatMap TypeBody.outputFields).map
      Field.ofDefinition, field.IsNamed := by
    intro field member
    simp only [List.mem_map, List.mem_flatMap] at member
    obtain ⟨definition, ⟨_, ⟨declaration, declared, rfl⟩, included⟩, rfl⟩ := member
    exact ((named declaration declared).outputFields definition included).field
  have inputs : ∀ field ∈ ((declarations.map (·.body)).flatMap TypeBody.inputFields).map
      InputValue.ofDefinition, field.IsNamed := by
    intro field member
    simp only [List.mem_map, List.mem_flatMap] at member
    obtain ⟨definition, ⟨_, ⟨declaration, declared, rfl⟩, included⟩, rfl⟩ := member
    exact ((named declaration declared).inputFields definition included).inputValue
  cases body with
  | scalar => trivial
  | object => exact outputs
  | interface => exact outputs
  | union => trivial
  | input => exact inputs
  | enum values =>
      simp only [TypeKind.ofBodies, enumValuesOf?]
      split
      · intro name member
        simp only [List.mem_map, List.mem_flatMap] at member
        obtain ⟨definition, ⟨_, ⟨declaration, declared, rfl⟩, included⟩, rfl⟩ := member
        exact (named declaration declared).enumValues definition included
      · trivial

theorem isNamed_schema {document : Document}
    (named : ∀ definition ∈ document, definition.IsNamed) : document.schema.IsNamed := by
  have declarations := isNamed_typeDeclarations named
  intro definition member
  rcases List.mem_append.mp member with builtIn | defined
  · exact isNamed_builtIn definition builtIn
  · obtain ⟨description, declaration, included, _, rfl⟩ := Document.mem_definedTypes.mp defined
    have own : declaration.IsNamed := named _ included
    refine ⟨own.name, isNamed_ofBodies declaration.body fun other listed => ?_⟩
    exact declarations other (List.mem_of_mem_filter listed)

/-- A text is accepted when it is read as a document that keeps the rules. -/
theorem Schema.ofSource_eq_ok_iff {source : String} {schema : Schema} :
    Schema.ofSource source = .ok schema ↔
      ∃ document, Document.read? source = some document ∧ document.Valid ∧
        document.schema = schema := by
  unfold Schema.ofSource Schema.ofDocument
  constructor
  · intro accepted
    split at accepted
    · contradiction
    · rename_i document read
      split at accepted
      · exact ⟨document, read, ‹_›, Except.ok.inj accepted⟩
      · contradiction
  · rintro ⟨document, read, valid, rfl⟩
    rw [read]
    exact if_pos valid

/-- All names in an accepted schema are names. -/
theorem isNamed_ofSource {source : String} {schema : Schema}
    (accepted : Schema.ofSource source = .ok schema) : schema.IsNamed := by
  obtain ⟨document, read, _, rfl⟩ := Schema.ofSource_eq_ok_iff.mp accepted
  exact isNamed_schema (isNamed_of_read? read)

theorem TypeKind.IsNamed.fields? {kind : TypeKind} (named : kind.IsNamed) {fields : List Field}
    (found : kind.fields? = some fields) : ∀ field ∈ fields, field.IsNamed := by
  cases kind with
  | object other => exact Option.some.inj found ▸ named
  | interface other => exact Option.some.inj found ▸ named
  | _ => contradiction

/-- The fields of an input object have names, and no arguments that would need some. -/
theorem TypeKind.IsNamed.rootFields? {kind : TypeKind} (named : kind.IsNamed) {fields : List Field}
    (found : kind.rootFields? = some fields) : ∀ field ∈ fields, field.IsNamed := by
  obtain selectable | ⟨inputs, rfl, rfl⟩ := TypeKind.rootFields?_eq_some_iff.mp found
  · exact named.fields? selectable
  · intro field member
    obtain ⟨input, included, rfl⟩ := List.mem_map.mp member
    exact ⟨(named input included).1, List.forall_mem_nil _⟩

namespace Schema

variable {schema : Schema}

theorem IsNamed.kind? (named : schema.IsNamed) {name : String} {kind : TypeKind}
    (found : schema.kind? name = some kind) : kind.IsNamed := by
  simp only [Schema.kind?, Option.map_eq_some_iff] at found
  obtain ⟨definition, type, rfl⟩ := found
  exact (named definition (List.mem_of_find?_eq_some type)).kind

theorem IsNamed.fields? (named : schema.IsNamed) {name : String} {fields : List Field}
    (found : schema.fields? name = some fields) : ∀ field ∈ fields, field.IsNamed := by
  obtain ⟨kind, type, declared⟩ := Option.bind_eq_some_iff.mp found
  exact (named.kind? type).fields? declared

theorem IsNamed.rootFields (named : schema.IsNamed) {kind : OperationKind} :
    ∀ field ∈ schema.rootFields kind, field.IsNamed := by
  intro field member
  obtain ⟨root, type, fields, _, typed, found, included⟩ := mem_rootFields.mp member
  exact (named.kind? typed).rootFields? found field included

end Schema

end Toolsmith.GraphQL

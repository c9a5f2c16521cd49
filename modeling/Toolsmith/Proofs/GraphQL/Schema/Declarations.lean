import Mathlib.Logic.Relation
import Toolsmith.Proofs.GraphQL.Schema.Names

/-!
What the types of an accepted schema declare. The fields of a type are those of its definition and
its extensions in the order of the text, and no name is declared twice among them.
-/

set_option autoImplicit false

namespace Toolsmith

/-- Where no key stands twice, what is looked for by its key is found. -/
theorem find?_eq_some_of_nodup {α : Type} {key : α → String} {items : List α}
    (distinct : (items.map key).Nodup) {x : α} (member : x ∈ items) :
    (items.find? fun y => key y = key x) = some x := by
  cases found : items.find? fun y => key y = key x with
  | none =>
      have missed := List.find?_eq_none.mp found x member
      simp at missed
  | some other =>
      have same : key other = key x := by simpa using List.find?_some found
      rw [List.inj_on_of_nodup_map distinct (List.mem_of_find?_eq_some found) member same]

namespace GraphQL

/-- The names of all fields of a type, of whichever kind. -/
def TypeKind.fieldNames : TypeKind → List String
  | .object fields => fields.map (·.name)
  | .interface fields => fields.map (·.name)
  | .input fields => fields.map (·.name)
  | _ => []

/-- A root type has the same fields, by name, as the type has anywhere. -/
theorem TypeKind.map_name_rootFields? (kind : TypeKind) {fields : List Field}
    (found : kind.rootFields? = some fields) : fields.map (·.name) = kind.fieldNames := by
  obtain selectable | ⟨inputs, rfl, rfl⟩ := TypeKind.rootFields?_eq_some_iff.mp found
  · cases kind with
    | object declared => rw [← Option.some.inj selectable, fieldNames]
    | interface declared => rw [← Option.some.inj selectable, fieldNames]
    | _ => contradiction
  · rw [List.map_map]
    rfl

/-- The types of a field and of its arguments. -/
def Field.references (field : Field) : List String :=
  field.type.typeName :: field.arguments.map (·.type.typeName)

/-- The types that a kind refers to. -/
def TypeKind.references : TypeKind → List String
  | .object fields => fields.flatMap Field.references
  | .interface fields => fields.flatMap Field.references
  | .input fields => fields.map (·.type.typeName)
  | _ => []

/-- No type declares two fields of one name. -/
def Schema.DeclaresOnce (schema : Schema) : Prop :=
  ∀ definition ∈ schema.types, definition.kind.fieldNames.Nodup

/-- A type refers to another one. -/
def Schema.Refers (schema : Schema) (holder held : String) : Prop :=
  ∃ kind, schema.kind? holder = some kind ∧ held ∈ kind.references

/-- References lead from one type to another, in any number of steps. -/
abbrev Schema.DependsOn (schema : Schema) (source target : String) : Prop :=
  Relation.ReflTransGen schema.Refers source target

theorem declaresOnce_builtIn : ∀ definition ∈ BuiltIn.types, definition.kind.fieldNames.Nodup := by
  decide +kernel

/-! Fields of a document. -/

namespace Document

/-- The names of the fields with arguments that a document declares for a type, in the order of its
declarations. -/
def fieldNamesOf (document : Document) (name : String) : List String :=
  (document.declarationsOf name).flatMap fun declared =>
    declared.body.outputFields.map (·.name)

/-- The type that a definition and all that extends it make. -/
def typeOf (document : Document) (description : Option String) (declaration : TypeDeclaration) :
    TypeDefinition :=
  { name := declaration.name
    description
    kind := .ofBodies declaration.body ((document.declarationsOf declaration.name).map (·.body)) }

/-- The type that is made of a definition, unless its name is built in. -/
def definedType? (document : Document) : Definition → Option TypeDefinition
  | .type description declaration =>
    if declaration.name ∈ BuiltIn.typeNames then none
    else some (document.typeOf description declaration)
  | _ => none

theorem definedTypes_eq (document : Document) :
    document.definedTypes = document.filterMap document.definedType? :=
  rfl

end Document

theorem fieldNames_ofBodies_sublist (body : TypeBody) (bodies : List TypeBody) :
    (TypeKind.ofBodies body bodies).fieldNames.Sublist (bodies.flatMap TypeBody.fieldNames) := by
  have outputs : (((bodies.flatMap TypeBody.outputFields).map Field.ofDefinition).map
      (·.name)).Sublist (bodies.flatMap TypeBody.fieldNames) := by
    rw [List.map_map, List.map_flatMap]
    apply List.Sublist.flatMap_right
    intro declared _
    exact List.sublist_append_left _ _
  have inputs : (((bodies.flatMap TypeBody.inputFields).map InputValue.ofDefinition).map
      (·.name)).Sublist (bodies.flatMap TypeBody.fieldNames) := by
    rw [List.map_map, List.map_flatMap]
    apply List.Sublist.flatMap_right
    intro declared _
    exact List.sublist_append_right _ _
  cases body with
  | object => exact outputs
  | interface => exact outputs
  | input => exact inputs
  | scalar => exact List.nil_sublist _
  | union => exact List.nil_sublist _
  | enum => exact List.nil_sublist _

/-- A type that is not built in is declared in the document, and its kind is made of all that is
declared under its name. -/
theorem exists_declaration_of_mem_definedTypes {document : Document} {definition : TypeDefinition}
    (member : definition ∈ document.definedTypes) :
    ∃ declaration ∈ document.typeDefinitions, declaration.name = definition.name ∧
      definition.name ∉ BuiltIn.typeNames ∧
      definition.kind = .ofBodies declaration.body
        ((document.declarationsOf definition.name).map (·.body)) := by
  obtain ⟨description, declaration, included, notBuiltIn, rfl⟩ :=
    Document.mem_definedTypes.mp member
  exact ⟨declaration, Document.mem_typeDefinitions.mpr ⟨description, included⟩, rfl, notBuiltIn, rfl⟩

theorem declaresOnce_schema {document : Document} (distinct : document.HasDistinctFields) :
    document.schema.DeclaresOnce := by
  intro definition member
  rcases List.mem_append.mp member with builtIn | defined
  · exact declaresOnce_builtIn definition builtIn
  · obtain ⟨declaration, declared, named, _, kind⟩ := exists_declaration_of_mem_definedTypes defined
    have own := distinct declaration (List.mem_append_left _ declared)
    rw [named] at own
    rw [kind]
    apply (fieldNames_ofBodies_sublist _ _).nodup
    rw [List.flatMap_map]
    exact own

namespace Schema

variable {schema : Schema}

theorem declaresOnce_ofSource {source : String} (accepted : Schema.ofSource source = .ok schema) :
    schema.DeclaresOnce := by
  obtain ⟨document, _, valid, rfl⟩ := ofSource_eq_ok_iff.mp accepted
  exact declaresOnce_schema valid.2.2.2.1

theorem exists_type_of_fields? {name : String} {fields : List Field}
    (found : schema.fields? name = some fields) :
    ∃ definition ∈ schema.types, definition.name = name ∧
      (definition.kind = .object fields ∨ definition.kind = .interface fields) := by
  simp only [fields?, kind?, Option.bind_eq_some_iff, Option.map_eq_some_iff] at found
  obtain ⟨kind, ⟨definition, type, rfl⟩, declared⟩ := found
  refine ⟨definition, List.mem_of_find?_eq_some type, by simpa using List.find?_some type, ?_⟩
  cases same : definition.kind with
  | object other =>
      rw [same] at declared
      exact .inl (congrArg TypeKind.object (Option.some.inj declared))
  | interface other =>
      rw [same] at declared
      exact .inr (congrArg TypeKind.interface (Option.some.inj declared))
  | _ =>
      rw [same] at declared
      contradiction

theorem refers_of_fields? {holder name : String} {fields : List Field} {field : Field}
    (found : schema.fields? holder = some fields) (member : field ∈ fields)
    (referred : name ∈ field.references) : schema.Refers holder name := by
  have included : name ∈ fields.flatMap Field.references :=
    List.mem_flatMap.mpr ⟨field, member, referred⟩
  obtain ⟨kind, kindFound, declared⟩ := Option.bind_eq_some_iff.mp found
  refine ⟨kind, kindFound, ?_⟩
  cases kind with
  | object other => exact Option.some.inj declared ▸ included
  | interface other => exact Option.some.inj declared ▸ included
  | _ => contradiction

theorem refers_of_rootFields? {holder name : String} {kind : TypeKind}
    (known : schema.kind? holder = some kind) {fields : List Field}
    (found : kind.rootFields? = some fields) {field : Field} (member : field ∈ fields)
    (referred : name ∈ field.references) : schema.Refers holder name := by
  obtain selectable | ⟨inputs, rfl, rfl⟩ := TypeKind.rootFields?_eq_some_iff.mp found
  · exact refers_of_fields? (Option.bind_eq_some_iff.mpr ⟨kind, known, selectable⟩) member referred
  · obtain ⟨input, included, rfl⟩ := List.mem_map.mp member
    obtain rfl := List.mem_singleton.mp referred
    exact ⟨_, known, List.mem_map_of_mem included⟩

/-- Names of types whose references are all among them, so that they depend on nothing else. -/
abbrev ClosesOver (schema : Schema) (names : List String) : Prop :=
  ∀ holder ∈ names, ∀ kind ∈ schema.kind? holder, ∀ held ∈ kind.references, held ∈ names

theorem ClosesOver.mem_of_dependsOn {names : List String} (closes : schema.ClosesOver names)
    {source target : String} (member : source ∈ names) (depends : schema.DependsOn source target) :
    target ∈ names := by
  induction depends with
  | refl => exact member
  | tail _ step inductionHypothesis =>
      obtain ⟨kind, found, referred⟩ := step
      exact closes _ inductionHypothesis kind found _ referred

theorem DeclaresOnce.nodup_fields (once : schema.DeclaresOnce) {name : String} {fields : List Field}
    (found : schema.fields? name = some fields) : (fields.map (·.name)).Nodup := by
  obtain ⟨definition, member, _, kind⟩ := exists_type_of_fields? found
  have distinct := once definition member
  rcases kind with kind | kind
  · rwa [kind] at distinct
  · rwa [kind] at distinct

theorem DeclaresOnce.nodup_rootFields (once : schema.DeclaresOnce) (kind : OperationKind) :
    ((schema.rootFields kind).map (·.name)).Nodup := by
  cases found : schema.rootFields? kind with
  | none => simp [rootFields, found]
  | some fields =>
      rw [rootFields, found, Option.getD_some]
      unfold rootFields? at found
      split at found
      · obtain rfl := Option.some.inj found
        exact List.nodup_nil
      · rename_i type typed
        obtain ⟨root, _, known⟩ := Option.bind_eq_some_iff.mp typed
        obtain ⟨definition, declared, rfl⟩ := Option.map_eq_some_iff.mp known
        rw [definition.kind.map_name_rootFields? found]
        exact once definition (List.mem_of_find?_eq_some declared)

/-- Where no name is declared twice, a field is found under its name. -/
theorem DeclaresOnce.find?_rootFields (once : schema.DeclaresOnce) {kind : OperationKind}
    {field : Field} (member : field ∈ schema.rootFields kind) :
    (schema.rootFields kind).find? (·.name = field.name) = some field :=
  find?_eq_some_of_nodup (once.nodup_rootFields kind) member

end Schema

/-- The fields of a type that a document defines are those that it declares, in its order. -/
theorem map_name_fields?_schema {document : Document} {name : String} {fields : List Field}
    (notBuiltIn : name ∉ BuiltIn.typeNames) (found : document.schema.fields? name = some fields) :
    fields.map (·.name) = document.fieldNamesOf name := by
  obtain ⟨definition, member, rfl, kind⟩ := Schema.exists_type_of_fields? found
  have defined : definition ∈ document.definedTypes := by
    rcases List.mem_append.mp member with builtIn | defined
    · exact absurd (List.mem_map_of_mem builtIn) notBuiltIn
    · exact defined
  obtain ⟨declaration, _, _, _, made⟩ := exists_declaration_of_mem_definedTypes defined
  have outputs : fields = (((document.declarationsOf definition.name).map
      (·.body)).flatMap TypeBody.outputFields).map Field.ofDefinition := by
    rw [made] at kind
    cases same : declaration.body <;> simp_all [TypeKind.ofBodies]
  rw [outputs, List.map_map, List.flatMap_map, List.map_flatMap, Document.fieldNamesOf]
  rfl

end GraphQL

end Toolsmith

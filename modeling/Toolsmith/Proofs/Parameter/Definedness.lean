import Toolsmith.Proofs.Parameter.Expansion

/-!
When there is a JSON Schema for a type: exactly when fields of input objects lead to no enum without
usable values.
-/

set_option autoImplicit false

namespace Toolsmith

namespace Parameter

/-- There is a JSON Schema for the parameter. -/
def IsDefined (parameter : Parameter) : Prop :=
  ∃ json, parameter.toJson = .ok json

theorem isDefined_array {items : Parameter} {notes : Notes} :
    (array items notes).IsDefined ↔ items.IsDefined := by
  simp only [IsDefined, toJson, Except.bind_eq_ok_iff]
  constructor
  · rintro ⟨_, itemSchema, ok, _⟩
    exact ⟨itemSchema, ok⟩
  · rintro ⟨itemSchema, ok⟩
    exact ⟨_, itemSchema, ok, rfl⟩

theorem exists_propertiesToJson_iff {properties : List (String × Parameter)} :
    (∃ members, propertiesToJson properties = .ok members) ↔
      ∀ property ∈ properties, property.2.IsDefined := by
  induction properties with
  | nil => simp [propertiesToJson]
  | cons property rest inductionHypothesis =>
      obtain ⟨name, parameter⟩ := property
      rw [List.forall_mem_cons, ← inductionHypothesis]
      simp only [propertiesToJson, Except.bind_eq_ok_iff]
      constructor
      · rintro ⟨_, schema, ok, members, restOk, _⟩
        exact ⟨⟨schema, ok⟩, ⟨members, restOk⟩⟩
      · rintro ⟨⟨schema, ok⟩, ⟨members, restOk⟩⟩
        exact ⟨(name, schema) :: members, schema, ok, members, restOk, rfl⟩

theorem isDefined_object {properties : List (String × Parameter)} {required : List String}
    {notes : Notes} :
    (object properties required notes).IsDefined ↔
      ∀ property ∈ properties, property.2.IsDefined := by
  rw [← exists_propertiesToJson_iff]
  simp only [IsDefined, toJson, Except.bind_eq_ok_iff]
  constructor
  · rintro ⟨_, members, ok, _⟩
    exact ⟨members, ok⟩
  · rintro ⟨members, ok⟩
    exact ⟨_, members, ok, rfl⟩

/-- Notes have no say in whether there is a JSON Schema. -/
theorem isDefined_mapNotes {parameter : Parameter} {change : Notes → Notes} :
    (parameter.mapNotes change).IsDefined ↔ parameter.IsDefined := by
  cases parameter with
  | array items notes => rw [mapNotes, isDefined_array, isDefined_array]
  | object properties required notes => rw [mapNotes, isDefined_object, isDefined_object]
  | _ => simp [mapNotes, IsDefined, toJson]

theorem isDefined_objectOf {ofType : GraphQL.TypeRef → Parameter} {values : List GraphQL.InputValue}
    {notes : Notes} :
    (objectOf ofType values notes).IsDefined ↔ ∀ value ∈ values, (ofType value.type).IsDefined := by
  simp [objectOf, isDefined_object, isDefined_mapNotes]

theorem isDefined_ofScalar (name : String) : (ofScalar name).IsDefined := by
  unfold ofScalar
  split
  · exact ⟨_, rfl⟩
  · exact ⟨_, rfl⟩

end Parameter

namespace GraphQL

/-- An enum without usable values. -/
def TypeKind.isUnusable : TypeKind → Bool
  | .enum none => true
  | _ => false

theorem TypeKind.isUnusable_iff {kind : TypeKind} : kind.isUnusable = true ↔ kind = .enum none := by
  unfold isUnusable
  split
  · simp
  · rename_i usable
    simpa using usable

namespace Schema

variable {schema : Schema}

/-- No enum without usable values lies behind a type. -/
def AvoidsUnusableEnums (schema : Schema) (type : TypeRef) : Prop :=
  ∀ name, schema.Reaches type.typeName name → schema.kind? name ≠ some (.enum none)

/-- Where all enums are usable, all types are. -/
theorem avoidsUnusableEnums_of_types
    (usable : ∀ definition ∈ schema.types, definition.kind.isUnusable = false) (type : TypeRef) :
    schema.AvoidsUnusableEnums type := by
  intro name _ found
  simp only [kind?, type?, Option.map_eq_some_iff] at found
  obtain ⟨definition, declared, unusable⟩ := found
  have checked := usable definition (List.mem_of_find?_eq_some declared)
  rw [TypeKind.isUnusable_iff.mpr unusable] at checked
  contradiction

theorem kind?_of_type? {name declared : String} {description : Option String} {kind : TypeKind}
    (type : schema.type? name = some ⟨declared, description, kind⟩) :
    schema.kind? name = some kind := by
  simp [kind?, type]

/-- The expansion ends at what has no fields of its own and at what is expanded already. -/
theorem Expands.eq_or_holds {expanding : List String} {source target : String}
    (expands : schema.Expands expanding source target) :
    target = source ∨
      source ∉ expanding ∧ ∃ held, schema.Holds source held ∧
        schema.Expands (source :: expanding) held target := by
  cases expands with
  | here => exact .inl rfl
  | inside fresh holds further => exact .inr ⟨fresh, _, holds, further⟩

theorem Expands.eq_of_kind {expanding : List String} {source target : String} {kind : TypeKind}
    (expands : schema.Expands expanding source target) (found : schema.kind? source = some kind)
    (noFields : ∀ fields, kind ≠ .input fields) : target = source := by
  rcases expands.eq_or_holds with same | ⟨_, _, ⟨fields, input, _⟩, _⟩
  · exact same
  · rw [found, Option.some.injEq] at input
    exact absurd input (noFields fields)

theorem isDefined_iff_of_parameterOf {expanding : List String} {type : TypeRef}
    {parameter : Parameter} (maps : schema.ParameterOf expanding type parameter) :
    parameter.IsDefined ↔
      ∀ name, schema.Expands expanding type.typeName name →
        schema.kind? name ≠ some (.enum none) := by
  induction maps with
  | list _ _ inductionHypothesis => exact Parameter.isDefined_array.trans inductionHypothesis
  | choice _ type =>
      apply iff_of_true ⟨_, rfl⟩
      intro name expands
      rw [expands.eq_of_kind (kind?_of_type? type) (by simp), TypeRef.typeName, kind?_of_type? type]
      simp
  | undefined _ type =>
      apply iff_of_false
      · rintro ⟨_, ok⟩
        simp [Parameter.toJson] at ok
      · intro avoids
        exact avoids _ (.here _ _) (kind?_of_type? type)
  | unexpanded _ type again =>
      apply iff_of_true ⟨_, rfl⟩
      intro name expands
      rcases expands.eq_or_holds with same | ⟨fresh, _⟩
      · rw [same, TypeRef.typeName, kind?_of_type? type]
        simp
      · exact absurd again fresh
  | @object expanding holder declared description fields _ type fresh _ inductionHypothesis =>
      rw [Parameter.isDefined_objectOf]
      constructor
      · intro defined name expands
        rcases expands.eq_or_holds with
          same | ⟨_, held, ⟨declaredFields, input, field, member, holds⟩, further⟩
        · rw [same, TypeRef.typeName, kind?_of_type? type]
          simp
        · rw [TypeRef.typeName, kind?_of_type? type, Option.some.injEq,
            TypeKind.input.injEq] at input
          subst input holds
          exact (inductionHypothesis field.type).mp (defined field member) name further
      · intro avoids field member
        refine (inductionHypothesis field.type).mpr fun name further => avoids name ?_
        exact .inside fresh ⟨fields, kind?_of_type? type, field, member, rfl⟩ further
  | scalar _ type =>
      apply iff_of_true (Parameter.isDefined_ofScalar _)
      intro name expands
      rw [expands.eq_of_kind (kind?_of_type? type) (by simp), TypeRef.typeName, kind?_of_type? type]
      simp
  | text _ noInput =>
      apply iff_of_true ⟨_, rfl⟩
      intro name expands found
      rcases expands.eq_or_holds with same | ⟨_, _, ⟨fields, input, _⟩, _⟩
      · rw [same] at found
        exact absurd (noInput _ found) (by decide)
      · exact absurd (noInput _ input) (by simp [TypeKind.takesValues])

theorem isDefined_parameter_iff {type : TypeRef} :
    (schema.parameter type).IsDefined ↔ schema.AvoidsUnusableEnums type := by
  simp only [parameter, isDefined_iff_of_parameterOf (parameterOf_parameterWithin schema [] type),
    expands_nil_iff, AvoidsUnusableEnums]

theorem isDefined_parameters_iff {arguments : List InputValue} :
    (schema.parameters arguments).IsDefined ↔
      ∀ argument ∈ arguments, schema.AvoidsUnusableEnums argument.type := by
  simp only [parameters, Parameter.isDefined_objectOf, isDefined_parameter_iff]

end Schema

end GraphQL

end Toolsmith

import Toolsmith.Proofs.Json.Printing
import Toolsmith.Proofs.Parameter.Notes

/-!
Numbers in the JSON Schemas of parameters. The only values that a parameter takes from a document as
they are are its defaults; so all its numbers are finite exactly when those of the defaults are that
the expansion comes to. An input object is expanded somewhere on the way to each of its fields,
though it may be cut off in other places.
-/

set_option autoImplicit false

namespace Toolsmith

/-- The default, if there is one, has finite numbers only. -/
def Notes.HasFiniteDefault (notes : Notes) : Prop :=
  ∀ value, notes.default = some value → value.HasFiniteNumbers

def GraphQL.InputValue.HasFiniteDefault (declared : GraphQL.InputValue) : Prop :=
  ∀ value, declared.default = some value → value.HasFiniteNumbers

namespace Parameter

mutual

/-- All defaults in a parameter have finite numbers only. -/
def HasFiniteDefaults : Parameter → Prop
  | .scalar _ notes => notes.HasFiniteDefault
  | .choice _ notes => notes.HasFiniteDefault
  | .array items notes => items.HasFiniteDefaults ∧ notes.HasFiniteDefault
  | .object properties _ notes => AllHaveFiniteDefaults properties ∧ notes.HasFiniteDefault
  | .unexpanded notes => notes.HasFiniteDefault
  | .undefined _ => True

def AllHaveFiniteDefaults : List (String × Parameter) → Prop
  | [] => True
  | (_, parameter) :: rest => parameter.HasFiniteDefaults ∧ AllHaveFiniteDefaults rest

end

theorem allHaveFiniteDefaults_iff {properties : List (String × Parameter)} :
    AllHaveFiniteDefaults properties ↔ ∀ property ∈ properties, property.2.HasFiniteDefaults := by
  induction properties with
  | nil => simp [AllHaveFiniteDefaults]
  | cons property rest inductionHypothesis =>
      rw [AllHaveFiniteDefaults, inductionHypothesis, List.forall_mem_cons]

/-- Of the members that notes become only the default can hold a number. -/
theorem forall_mem_notesToJson {notes : Notes} :
    (∀ member ∈ notesToJson notes, member.2.HasFiniteNumbers) ↔ notes.HasFiniteDefault := by
  obtain ⟨description, default⟩ := notes
  cases description <;> cases default <;> simp [notesToJson, Notes.HasFiniteDefault]

theorem forall_mem_requiredMember (names : List String) :
    ∀ member ∈ requiredMember names, member.2.HasFiniteNumbers := by
  rintro ⟨key, json⟩ included
  obtain ⟨_, rfl, rfl⟩ := mem_requiredMember.mp included
  simp

/-- The name of a type holds no number. -/
theorem hasFiniteNumbers_assertions {type : String} {members : List (String × Json)} :
    (Json.obj (typeMember type :: members)).HasFiniteNumbers ↔
      ∀ member ∈ members, member.2.HasFiniteNumbers := by
  rw [Json.hasFiniteNumbers_obj, List.forall_mem_cons, typeMember]
  exact and_iff_right (.str type)

mutual

theorem hasFiniteNumbers_toJson {parameter : Parameter} {json : Json}
    (ok : parameter.toJson = .ok json) :
    json.HasFiniteNumbers ↔ parameter.HasFiniteDefaults := by
  match parameter with
  | .scalar kind notes =>
    obtain rfl := Except.ok.inj ok
    exact hasFiniteNumbers_assertions.trans forall_mem_notesToJson
  | .choice values notes =>
    obtain rfl := Except.ok.inj ok
    have texts : (Json.arr (values.map .str)).HasFiniteNumbers := by simp
    rw [hasFiniteNumbers_assertions, List.forall_mem_cons, forall_mem_notesToJson]
    exact and_iff_right texts
  | .array items notes =>
    simp only [toJson, Except.bind_eq_ok_iff] at ok
    obtain ⟨itemSchema, itemsOk, collected⟩ := ok
    obtain rfl := Except.ok.inj collected
    rw [hasFiniteNumbers_assertions, List.forall_mem_cons, forall_mem_notesToJson,
      hasFiniteNumbers_toJson itemsOk, HasFiniteDefaults]
  | .object properties required notes =>
    simp only [toJson, Except.bind_eq_ok_iff] at ok
    obtain ⟨schemas, propertiesOk, collected⟩ := ok
    obtain rfl := Except.ok.inj collected
    rw [hasFiniteNumbers_assertions, List.forall_mem_cons, List.forall_mem_append,
      forall_mem_notesToJson, and_iff_right (forall_mem_requiredMember required),
      Json.hasFiniteNumbers_obj, hasFiniteNumbers_propertiesToJson propertiesOk, HasFiniteDefaults]
  | .unexpanded notes =>
    obtain rfl := Except.ok.inj ok
    exact hasFiniteNumbers_assertions.trans forall_mem_notesToJson
  | .undefined enum => simp [toJson] at ok

theorem hasFiniteNumbers_propertiesToJson {properties : List (String × Parameter)}
    {schemas : List (String × Json)} (ok : propertiesToJson properties = .ok schemas) :
    (∀ property ∈ schemas, property.2.HasFiniteNumbers) ↔ AllHaveFiniteDefaults properties := by
  match properties with
  | [] =>
    obtain rfl := Except.ok.inj ok
    simp [AllHaveFiniteDefaults]
  | (name, parameter) :: rest =>
    simp only [propertiesToJson, Except.bind_eq_ok_iff] at ok
    obtain ⟨schema, parameterOk, others, restOk, collected⟩ := ok
    obtain rfl := Except.ok.inj collected
    rw [AllHaveFiniteDefaults, List.forall_mem_cons, hasFiniteNumbers_toJson parameterOk,
      hasFiniteNumbers_propertiesToJson restOk]

end

/-- A declaration adds its own default to a parameter that has none at its top. -/
theorem hasFiniteDefaults_attach {parameter : Parameter} {declared : GraphQL.InputValue}
    (defined : parameter.IsDefined) (bare : parameter.notes.default = none) :
    (parameter.mapNotes (.attach declared)).HasFiniteDefaults ↔
      declared.HasFiniteDefault ∧ parameter.HasFiniteDefaults := by
  have attached : ∀ notes : Notes, notes.default = none →
      ((Notes.attach declared notes).HasFiniteDefault ↔
        declared.HasFiniteDefault ∧ notes.HasFiniteDefault) := by
    intro notes none
    simp [Notes.attach, Notes.HasFiniteDefault, GraphQL.InputValue.HasFiniteDefault, none]
  cases parameter with
  | scalar kind notes => exact attached notes bare
  | choice values notes => exact attached notes bare
  | unexpanded notes => exact attached notes bare
  | array items notes =>
      rw [mapNotes, HasFiniteDefaults, HasFiniteDefaults, attached notes bare, and_left_comm]
  | object properties required notes =>
      rw [mapNotes, HasFiniteDefaults, HasFiniteDefaults, attached notes bare, and_left_comm]
  | undefined enum =>
      obtain ⟨_, ok⟩ := defined
      simp [toJson] at ok

/-- An object made of declared values: their own defaults and those of their types. -/
theorem hasFiniteDefaults_objectOf {ofType : GraphQL.TypeRef → Parameter}
    {values : List GraphQL.InputValue} {notes : Notes}
    (defined : (objectOf ofType values notes).IsDefined) (plain : notes.default = none)
    (bare : ∀ value ∈ values, (ofType value.type).notes.default = none) :
    (objectOf ofType values notes).HasFiniteDefaults ↔
      ∀ value ∈ values, value.HasFiniteDefault ∧ (ofType value.type).HasFiniteDefaults := by
  have each := isDefined_objectOf.mp defined
  have own : notes.HasFiniteDefault := by simp [Notes.HasFiniteDefault, plain]
  rw [objectOf, HasFiniteDefaults, allHaveFiniteDefaults_iff, List.forall_mem_map]
  constructor
  · rintro ⟨all, _⟩ value member
    exact (hasFiniteDefaults_attach (each value member) (bare value member)).mp (all value member)
  · intro all
    refine ⟨fun value member => ?_, own⟩
    exact (hasFiniteDefaults_attach (each value member) (bare value member)).mpr (all value member)

theorem hasFiniteDefaults_ofScalar (name : String) : (ofScalar name).HasFiniteDefaults := by
  unfold ofScalar
  split
  · simp [HasFiniteDefaults, Notes.HasFiniteDefault]
  · simp [HasFiniteDefaults, Notes.HasFiniteDefault]

end Parameter

namespace GraphQL.Schema

variable {schema : Schema}

/-- Types have no defaults; only declarations do. -/
theorem default_parameterOf {expanding : List String} {type : TypeRef} {parameter : Parameter}
    (maps : schema.ParameterOf expanding type parameter) : parameter.notes.default = none := by
  cases maps with
  | scalar =>
      unfold Parameter.ofScalar
      split
      · rfl
      · rfl
  | _ => rfl

/-- The expansion comes to a field: it expands the object that declares it. -/
inductive ComesTo (schema : Schema) : List String → String → InputValue → Prop
  | own {expanding : List String} {holder : String} {fields : List InputValue}
      {field : InputValue} (fresh : holder ∉ expanding)
      (kind : schema.kind? holder = some (.input fields)) (member : field ∈ fields) :
      ComesTo schema expanding holder field
  | inside {expanding : List String} {holder : String} {fields : List InputValue}
      {through field : InputValue} (fresh : holder ∉ expanding)
      (kind : schema.kind? holder = some (.input fields)) (member : through ∈ fields)
      (further : ComesTo schema (holder :: expanding) through.type.typeName field) :
      ComesTo schema expanding holder field

namespace ComesTo

/-- What is come to is a field of an input object that is expanded, or lies behind one. -/
theorem cases_kind {expanding : List String} {holder : String} {field : InputValue}
    (comes : schema.ComesTo expanding holder field) :
    holder ∉ expanding ∧ ∃ fields, schema.kind? holder = some (.input fields) ∧
      (field ∈ fields ∨ ∃ through ∈ fields,
        schema.ComesTo (holder :: expanding) through.type.typeName field) := by
  cases comes with
  | own fresh kind member => exact ⟨fresh, _, kind, .inl member⟩
  | inside fresh kind member further => exact ⟨fresh, _, kind, .inr ⟨_, member, further⟩⟩

theorem not_of_kind {expanding : List String} {name : String} {kind : TypeKind}
    (found : schema.kind? name = some kind) (noFields : ∀ fields, kind ≠ .input fields)
    (field : InputValue) : ¬ schema.ComesTo expanding name field := by
  intro comes
  obtain ⟨_, fields, input, _⟩ := comes.cases_kind
  rw [found, Option.some.injEq] at input
  exact noFields fields input

theorem reaches {expanding : List String} {source : String} {field : InputValue}
    (comes : schema.ComesTo expanding source field) :
    ∃ holder fields, schema.Reaches source holder ∧
      schema.kind? holder = some (.input fields) ∧ field ∈ fields := by
  induction comes with
  | own _ kind member => exact ⟨_, _, .refl, kind, member⟩
  | inside _ kind member _ inductionHypothesis =>
      obtain ⟨holder, fields, reached, declared, included⟩ := inductionHypothesis
      exact ⟨holder, fields, .head ⟨_, kind, _, member, rfl⟩ reached, declared, included⟩

end ComesTo

/-- An object that the expansion comes to is expanded there, or has been on the way. -/
theorem comesTo_of_expands {expanding : List String} {source holder : String}
    (expands : schema.Expands expanding source holder) (open_ : holder ∉ expanding)
    {fields : List InputValue} (kind : schema.kind? holder = some (.input fields))
    {field : InputValue} (member : field ∈ fields) : schema.ComesTo expanding source field := by
  induction expands with
  | here => exact .own open_ kind member
  | @inside expanding source held target fresh holds _ inductionHypothesis =>
      by_cases same : target = source
      · subst same
        exact .own fresh kind member
      · obtain ⟨declared, input, through, included, rfl⟩ := holds
        exact .inside fresh input included (inductionHypothesis (by simp [same, open_]) kind)

theorem comesTo_nil_iff {source : String} {field : InputValue} :
    schema.ComesTo [] source field ↔
      ∃ holder fields, schema.Reaches source holder ∧
        schema.kind? holder = some (.input fields) ∧ field ∈ fields := by
  constructor
  · exact ComesTo.reaches
  · rintro ⟨holder, fields, reaches, kind, member⟩
    exact comesTo_of_expands (expands_of_reaches reaches) List.not_mem_nil kind member

/-- The defaults in a parameter are those of the fields that the expansion comes to. -/
theorem hasFiniteDefaults_iff_of_parameterOf {expanding : List String} {type : TypeRef}
    {parameter : Parameter} (maps : schema.ParameterOf expanding type parameter)
    (defined : parameter.IsDefined) :
    parameter.HasFiniteDefaults ↔
      ∀ field, schema.ComesTo expanding type.typeName field → field.HasFiniteDefault := by
  induction maps with
  | list _ _ inductionHypothesis =>
      have plain : Notes.HasFiniteDefault {} := by simp [Notes.HasFiniteDefault]
      rw [Parameter.HasFiniteDefaults, and_iff_left plain]
      exact inductionHypothesis (Parameter.isDefined_array.mp defined)
  | choice _ type =>
      apply iff_of_true
      · simp [Parameter.HasFiniteDefaults, Notes.HasFiniteDefault, Notes.describedBy]
      · intro field comes
        exact absurd comes (ComesTo.not_of_kind (kind?_of_type? type) (by simp) field)
  | undefined =>
      obtain ⟨_, ok⟩ := defined
      simp [Parameter.toJson] at ok
  | unexpanded _ _ again =>
      apply iff_of_true
      · simp [Parameter.HasFiniteDefaults, Notes.HasFiniteDefault, Notes.describedBy]
      · intro field comes
        exact absurd again comes.cases_kind.1
  | @object expanding holder declared description fields _ type fresh inside inductionHypothesis =>
      have each := Parameter.isDefined_objectOf.mp defined
      rw [Parameter.hasFiniteDefaults_objectOf defined rfl
        fun value _ => default_parameterOf (inside value.type)]
      constructor
      · intro finite field comes
        obtain ⟨_, others, input, own | ⟨through, member, further⟩⟩ := comes.cases_kind
        all_goals
          rw [TypeRef.typeName, kind?_of_type? type, Option.some.injEq, TypeKind.input.injEq] at input
          subst input
        · exact (finite field own).1
        · exact (inductionHypothesis through.type (each through member)).mp
            (finite through member).2 field further
      · intro finite value member
        refine ⟨finite value (.own fresh (kind?_of_type? type) member), ?_⟩
        apply (inductionHypothesis value.type (each value member)).mpr
        intro field further
        exact finite field (.inside fresh (kind?_of_type? type) member further)
  | scalar _ type =>
      apply iff_of_true (Parameter.hasFiniteDefaults_ofScalar _)
      intro field comes
      exact absurd comes (ComesTo.not_of_kind (kind?_of_type? type) (by simp) field)
  | text _ noInput =>
      apply iff_of_true
      · simp [Parameter.HasFiniteDefaults, Notes.HasFiniteDefault]
      · intro field comes
        obtain ⟨_, fields, input, _⟩ := comes.cases_kind
        exact absurd (noInput _ input) (by simp [TypeKind.takesValues])

/-- A declared value and all fields that its type leads to have finite defaults. -/
def LeadsToFiniteDefaults (schema : Schema) (declared : InputValue) : Prop :=
  declared.HasFiniteDefault ∧
    ∀ holder fields, schema.Reaches declared.type.typeName holder →
      schema.kind? holder = some (.input fields) → ∀ field ∈ fields, field.HasFiniteDefault

theorem hasFiniteDefaults_parameters_iff {arguments : List InputValue}
    (defined : (schema.parameters arguments).IsDefined) :
    (schema.parameters arguments).HasFiniteDefaults ↔
      ∀ argument ∈ arguments, schema.LeadsToFiniteDefaults argument := by
  have each := Parameter.isDefined_objectOf.mp defined
  have maps := fun argument : InputValue => parameterOf_parameterWithin schema [] argument.type
  rw [parameters, Parameter.hasFiniteDefaults_objectOf defined rfl
    fun argument _ => default_parameterOf (maps argument)]
  apply forall₂_congr
  intro argument member
  apply and_congr_right'
  rw [parameter, hasFiniteDefaults_iff_of_parameterOf (maps argument) (each argument member)]
  simp only [comesTo_nil_iff]
  constructor
  · intro finite holder fields reaches kind field included
    exact finite field ⟨holder, fields, reaches, kind, included⟩
  · rintro finite field ⟨holder, fields, reaches, kind, included⟩
    exact finite holder fields reaches kind field included

end GraphQL.Schema

end Toolsmith

import Toolsmith.GraphQL.Schema.OfDocument
import Toolsmith.Proofs.Parameter.Acceptance
import Toolsmith.Proofs.Parameter.Definedness

/-!
Parameters mean what the types mean. What conforms to a type is valid against its JSON Schema, also
where input objects hold each other in cycles; and where none that is reached does, only what
conforms is valid.
-/

set_option autoImplicit false

namespace Toolsmith.GraphQL.Schema

variable {schema : Schema}

/-- The values of a scalar type. A custom scalar takes texts. -/
def TakenByScalar (name : String) (value : Json) : Prop :=
  if name = "Int" then ∃ number, value = .int number
  else if name = "Float" then (∃ number, value = .int number) ∨ ∃ x, value = .float x
  else if name = "Boolean" then ∃ truth, value = .bool truth
  else ∃ text, value = .str text

/-- The values of a type other than null. A type that takes no values is treated as a text. -/
inductive Conforms (schema : Schema) : TypeRef → Json → Prop
  | list {items : TypeRef} {elements : List Json} (required : Bool)
      (each : ∀ element ∈ elements, Conforms schema items element) :
      Conforms schema (.list items required) (.arr elements)
  | enum {name : String} {values : List String} {text : String} (required : Bool)
      (kind : schema.kind? name = some (.enum (some values))) (member : text ∈ values) :
      Conforms schema (.named name required) (.str text)
  | input {name : String} {fields : List InputValue} {members : List (String × Json)}
      (required : Bool) (kind : schema.kind? name = some (.input fields))
      (present : ∀ field ∈ fields, field.type.isRequired = true →
        field.name ∈ members.map Prod.fst)
      (each : ∀ field ∈ fields, ∀ member ∈ members, member.1 = field.name →
        Conforms schema field.type member.2) :
      Conforms schema (.named name required) (.obj members)
  | scalar {name : String} {value : Json} (required : Bool)
      (kind : schema.kind? name = some .scalar) (taken : TakenByScalar name value) :
      Conforms schema (.named name required) value
  | text {name : String} {text : String} (required : Bool)
      (noInput : ∀ kind, schema.kind? name = some kind → kind.takesValues = false) :
      Conforms schema (.named name required) (.str text)

/-- A map that holds the arguments that may not be null, and values that conform under all declared
names that it holds. -/
def ArgumentsConform (schema : Schema) (arguments : List InputValue) (value : Json) : Prop :=
  ∃ members, value = .obj members ∧
    (∀ argument ∈ arguments, argument.type.isRequired = true →
      argument.name ∈ members.map Prod.fst) ∧
    ∀ argument ∈ arguments, ∀ member ∈ members, member.1 = argument.name →
      schema.Conforms argument.type member.2

/-- No input object that the fields of a type lead to leads to itself. -/
def IsAcyclic (schema : Schema) (type : TypeRef) : Prop :=
  ∀ name, schema.Reaches type.typeName name → ¬ schema.ReachesItself name

/-- A type without fields of its own leads nowhere. -/
theorem isAcyclic_of_kind {type : TypeRef} {kind : TypeKind}
    (found : schema.kind? type.typeName = some kind) (noFields : ∀ fields, kind ≠ .input fields) :
    schema.IsAcyclic type := by
  have holdsNothing : ∀ held, ¬ schema.Holds type.typeName held := by
    rintro held ⟨fields, input, _⟩
    rw [found, Option.some.injEq] at input
    exact noFields fields input
  intro name reaches cycle
  rcases Relation.ReflTransGen.cases_head reaches with rfl | ⟨held, holds, _⟩
  · obtain ⟨held, holds, _⟩ := Relation.TransGen.head'_iff.mp cycle
    exact holdsNothing held holds
  · exact holdsNothing held holds

/-- An input object is on no cycle if none is reached from the types of its fields: it would be
reached from one of them itself. -/
theorem isAcyclic_of_fields {type : TypeRef} {fields : List InputValue}
    (found : schema.kind? type.typeName = some (.input fields))
    (each : ∀ field ∈ fields, schema.IsAcyclic field.type) : schema.IsAcyclic type := by
  have below : ∀ held, schema.Holds type.typeName held → ∀ name, schema.Reaches held name →
      ¬ schema.ReachesItself name := by
    rintro held ⟨own, input, field, member, rfl⟩
    rw [found, Option.some.injEq, TypeKind.input.injEq] at input
    exact each field (input ▸ member)
  intro name reaches cycle
  rcases Relation.ReflTransGen.cases_head reaches with rfl | ⟨held, holds, behind⟩
  · obtain ⟨held, holds, back⟩ := Relation.TransGen.head'_iff.mp cycle
    exact below held holds _ back cycle
  · exact below held holds name behind cycle

theorem accepts_ofScalar {name : String} {value : Json} :
    (Parameter.ofScalar name).Accepts value ↔ TakenByScalar name value := by
  unfold Parameter.ofScalar TakenByScalar
  split
  · subst name
    simp [Parameter.Accepts, ScalarKind.text, Json.hasType_string]
  · unfold ScalarKind.ofScalarName
    split
    · simp [Parameter.Accepts, ScalarKind.text, Json.hasType_integer]
    · simp [Parameter.Accepts, ScalarKind.text, Json.hasType_number]
    · simp [Parameter.Accepts, ScalarKind.text, Json.hasType_boolean]
    · rename_i noInt noFloat noBoolean
      rw [if_neg noInt, if_neg noFloat, if_neg noBoolean]
      exact Json.hasType_string

theorem exists_type?_of_kind? {name : String} {kind : TypeKind}
    (found : schema.kind? name = some kind) :
    ∃ declared description, schema.type? name = some ⟨declared, description, kind⟩ := by
  simp only [kind?, Option.map_eq_some_iff] at found
  obtain ⟨⟨declared, description, _⟩, type, rfl⟩ := found
  exact ⟨declared, description, type⟩

/-- What conforms is accepted, whichever objects are being expanded: where the expansion is cut off,
any map is accepted. -/
theorem accepts_of_conforms {type : TypeRef} {value : Json} (conforms : schema.Conforms type value)
    (expanding : List String) : (schema.parameterWithin expanding type).Accepts value := by
  induction conforms generalizing expanding with
  | @list items elements required _ inductionHypothesis =>
      rw [parameterWithin]
      exact ⟨elements, rfl, fun element member => inductionHypothesis element member expanding⟩
  | @enum name values text required kind member =>
      obtain ⟨declared, description, type⟩ := exists_type?_of_kind? kind
      rw [parameterWithin_named, type]
      exact ⟨text, member, rfl⟩
  | @input name fields members required kind present _ inductionHypothesis =>
      obtain ⟨declared, description, type⟩ := exists_type?_of_kind? kind
      rw [parameterWithin_named, type]
      dsimp only
      by_cases again : name ∈ expanding
      · rw [if_pos again]
        exact ⟨members, rfl⟩
      · rw [if_neg again]
        refine Parameter.accepts_objectOf.mpr ⟨members, rfl, present, ?_⟩
        intro field declared member included named
        exact inductionHypothesis field declared member included named (name :: expanding)
  | @scalar name value required kind taken =>
      obtain ⟨declared, description, type⟩ := exists_type?_of_kind? kind
      rw [parameterWithin_named, type]
      exact accepts_ofScalar.mpr taken
  | @text name text required noInput =>
      have maps := parameterOf_parameterWithin schema expanding (.named name required)
      generalize schema.parameterWithin expanding (.named name required) = parameter at maps
      cases maps with
      | text => rfl
      | scalar _ type => exact absurd (noInput _ (kind?_of_type? type)) (by decide)
      | choice _ type | undefined _ type | unexpanded _ type _ | object _ type _ _ =>
          exact absurd (noInput _ (kind?_of_type? type)) (by simp [TypeKind.takesValues])

/-- Without cycles nothing is cut off: what is being expanded leads to the type at hand, which does
not lead back. -/
theorem conforms_of_accepts {expanding : List String} {type : TypeRef} {parameter : Parameter}
    (maps : schema.ParameterOf expanding type parameter) (acyclic : schema.IsAcyclic type)
    (above : ∀ name ∈ expanding, Relation.TransGen schema.Holds name type.typeName)
    {value : Json} (accepted : parameter.Accepts value) : schema.Conforms type value := by
  induction maps generalizing value with
  | list required _ inductionHypothesis =>
      obtain ⟨elements, rfl, each⟩ := accepted
      exact .list required fun element member =>
        inductionHypothesis acyclic above (each element member)
  | choice required type =>
      obtain ⟨text, member, rfl⟩ := accepted
      exact .enum required (kind?_of_type? type) member
  | undefined => exact accepted.elim
  | @unexpanded expanding name _ _ _ _ _ again =>
      exact absurd (above name again) (acyclic name .refl)
  | @object expanding name declared description fields required type _ _ inductionHypothesis =>
      obtain ⟨members, rfl, present, each⟩ := Parameter.accepts_objectOf.mp accepted
      refine .input required (kind?_of_type? type) present
        fun field declared member included named => ?_
      have holds : schema.Holds name field.type.typeName :=
        ⟨fields, kind?_of_type? type, field, declared, rfl⟩
      refine inductionHypothesis field.type ?_ ?_ (each field declared member included named)
      · intro reached reaches
        exact acyclic reached (.head holds reaches)
      · intro holder member
        rcases List.mem_cons.mp member with rfl | further
        · exact .single holds
        · exact .tail (above holder further) holds
  | scalar required type =>
      exact .scalar required (kind?_of_type? type) (accepts_ofScalar.mp accepted)
  | text required noInput =>
      obtain ⟨text, rfl⟩ := Json.hasType_string.mp accepted
      exact .text required noInput

theorem accepts_parameters_iff {arguments : List InputValue} {value : Json} :
    (schema.parameters arguments).Accepts value ↔
      ∃ members, value = .obj members ∧
        (∀ argument ∈ arguments, argument.type.isRequired = true →
          argument.name ∈ members.map Prod.fst) ∧
        ∀ argument ∈ arguments, ∀ member ∈ members, member.1 = argument.name →
          (schema.parameter argument.type).Accepts member.2 :=
  Parameter.accepts_objectOf

theorem accepts_parameters_of_conform {arguments : List InputValue} {value : Json}
    (conform : schema.ArgumentsConform arguments value) :
    (schema.parameters arguments).Accepts value := by
  obtain ⟨members, rfl, present, each⟩ := conform
  refine accepts_parameters_iff.mpr ⟨members, rfl, present, ?_⟩
  intro argument declared member included named
  exact accepts_of_conforms (each argument declared member included named) []

/-- For a type, and likewise for the arguments of a field: there is a JSON Schema unless an enum
without usable values is reached; all that conforms is valid against it; and without cycles all that
is valid conforms. -/
theorem validates_iff_conforms (schema : Schema) :
    (∀ type,
      ((∃ json, (schema.parameter type).toJson = .ok json) ↔ schema.AvoidsUnusableEnums type) ∧
        ∀ json, (schema.parameter type).toJson = .ok json → ∀ value,
          (schema.Conforms type value → Json.Validates json value) ∧
            (schema.IsAcyclic type → Json.Validates json value → schema.Conforms type value)) ∧
      ∀ arguments,
        ((∃ json, (schema.parameters arguments).toJson = .ok json) ↔
            ∀ argument ∈ arguments, schema.AvoidsUnusableEnums argument.type) ∧
          ∀ json, (schema.parameters arguments).toJson = .ok json → ∀ value,
            (schema.ArgumentsConform arguments value → Json.Validates json value) ∧
              ((∀ argument ∈ arguments, schema.IsAcyclic argument.type) →
                Json.Validates json value → schema.ArgumentsConform arguments value) := by
  constructor
  · intro type
    refine ⟨isDefined_parameter_iff, fun json ok value => ?_⟩
    rw [Parameter.validates_toJson ok]
    constructor
    · intro conforms
      exact accepts_of_conforms conforms []
    · intro acyclic accepted
      exact conforms_of_accepts (parameterOf_parameterWithin schema [] type) acyclic (by simp)
        accepted
  · intro arguments
    refine ⟨isDefined_parameters_iff, fun json ok value => ?_⟩
    rw [Parameter.validates_toJson ok]
    refine ⟨accepts_parameters_of_conform, ?_⟩
    · rw [accepts_parameters_iff]
      rintro acyclic ⟨members, rfl, present, each⟩
      refine ⟨members, rfl, present, fun argument declared member included named => ?_⟩
      exact conforms_of_accepts (parameterOf_parameterWithin schema [] argument.type)
        (acyclic argument declared) (by simp) (each argument declared member included named)

/-- An input object that holds itself in a list, and one that holds enums only: there all that is
valid conforms. -/
theorem validates_iff_conforms_sample :
    ∃ schema json acyclicJson,
      Schema.ofSource
          ("input I { inner: [I!], kind: E! } input J { kinds: [E!]! } enum E { A } " ++
            "type Query { f(x: I, y: J): Int }") = .ok schema ∧
        (schema.parameter (.named "I" true)).toJson = .ok json ∧
        Json.Validates json
          (.obj [("kind", .str "A"), ("inner", .arr [.obj [("kind", .str "A")]])]) ∧
        (schema.parameter (.named "J" true)).toJson = .ok acyclicJson ∧
        Json.Validates acyclicJson (.obj [("kinds", .arr [.str "A"])]) ∧
        ∀ value, Json.Validates acyclicJson value → schema.Conforms (.named "J" true) value := by
  obtain ⟨schema, accepted, checked⟩ := Except.exists_eq_ok_of_any
    (Schema.ofSource
      ("input I { inner: [I!], kind: E! } input J { kinds: [E!]! } enum E { A } " ++
        "type Query { f(x: I, y: J): Int }"))
    (fun schema =>
      schema.types.all (fun type => !type.kind.isUnusable) &&
        schema.kind? "I" =
          some (.input
            [⟨"inner", none, .list (.named "I" true) false, none⟩,
              ⟨"kind", none, .named "E" true, none⟩]) &&
        schema.kind? "J" =
          some (.input [⟨"kinds", none, .list (.named "E" true) true, none⟩]) &&
        schema.kind? "E" = some (.enum (some ["A"])))
    (by decide +kernel)
  simp only [Bool.and_eq_true, decide_eq_true_eq] at checked
  obtain ⟨⟨⟨usable, isInput⟩, isAcyclicInput⟩, isEnum⟩ := checked
  have usable : ∀ type ∈ schema.types, type.kind.isUnusable = false := by simpa using usable
  have choice : schema.Conforms (.named "E" true) (.str "A") := .enum true isEnum (by simp)
  have leaf : schema.Conforms (.named "I" true) (.obj [("kind", .str "A")]) :=
    .input true isInput (by simp [TypeRef.isRequired]) (by simpa using choice)
  have inner : schema.Conforms (.list (.named "I" true) false)
      (.arr [.obj [("kind", .str "A")]]) := .list false (by simpa using leaf)
  have whole : schema.Conforms (.named "I" true)
      (.obj [("kind", .str "A"), ("inner", .arr [.obj [("kind", .str "A")]])]) :=
    .input true isInput (by simp [TypeRef.isRequired]) (by simpa using ⟨inner, choice⟩)
  have kinds : schema.Conforms (.list (.named "E" true) true) (.arr [.str "A"]) :=
    .list true (by simpa using choice)
  have flat : schema.Conforms (.named "J" true) (.obj [("kinds", .arr [.str "A"])]) :=
    .input true isAcyclicInput (by simp) (by simpa using kinds)
  have acyclic : schema.IsAcyclic (.named "J" true) :=
    isAcyclic_of_fields isAcyclicInput (by simpa using isAcyclic_of_kind isEnum (by simp))
  obtain ⟨json, ok⟩ := isDefined_parameter_iff.mpr
    (avoidsUnusableEnums_of_types usable (.named "I" true))
  obtain ⟨acyclicJson, acyclicOk⟩ := isDefined_parameter_iff.mpr
    (avoidsUnusableEnums_of_types usable (.named "J" true))
  have valid := ((validates_iff_conforms schema).1 (.named "J" true)).2 acyclicJson acyclicOk
  exact ⟨schema, json, acyclicJson, accepted, ok,
    (((validates_iff_conforms schema).1 _).2 json ok _).1 whole, acyclicOk,
    (valid _).1 flat, fun value => (valid value).2 acyclic⟩

/-- Behind a field that may be left out there can be an enum without usable values. Then there is
no JSON Schema that the empty map could be valid against. -/
theorem conforms_without_schema :
    ∃ schema,
      Schema.ofSource
          ("enum E { A @deprecated(reason: 1) } input I { kind: E } " ++
            "type Query { f(x: I): Int }") = .ok schema ∧
        schema.Conforms (.named "I" false) (.obj []) ∧
        ¬ ∃ json, (schema.parameter (.named "I" false)).toJson = .ok json ∧
          Json.Validates json (.obj []) := by
  obtain ⟨schema, accepted, checked⟩ := Except.exists_eq_ok_of_any
    (Schema.ofSource
      ("enum E { A @deprecated(reason: 1) } input I { kind: E } " ++
        "type Query { f(x: I): Int }"))
    (fun schema =>
      schema.kind? "I" = some (.input [⟨"kind", none, .named "E" false, none⟩]) &&
        schema.kind? "E" = some (.enum none))
    (by decide +kernel)
  simp only [Bool.and_eq_true, decide_eq_true_eq] at checked
  obtain ⟨isInput, isEnum⟩ := checked
  have empty : schema.Conforms (.named "I" false) (.obj []) :=
    .input false isInput (by simp [TypeRef.isRequired]) (by simp)
  have holds : schema.Holds "I" "E" := ⟨_, isInput, _, List.mem_singleton_self _, rfl⟩
  refine ⟨schema, accepted, empty, ?_⟩
  rintro ⟨json, ok, _⟩
  exact isDefined_parameter_iff.mp ⟨json, ok⟩ "E" (.single holds) isEnum

end Toolsmith.GraphQL.Schema

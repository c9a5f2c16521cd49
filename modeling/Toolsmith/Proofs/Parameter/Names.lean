import Toolsmith.Proofs.GraphQL.Schema.Names
import Toolsmith.Proofs.Parameter.Expansion

/-!
Names in the JSON Schemas of parameters. What stands under a key there is an assertion, a property
of an input object or a field in a default; so where a schema has nothing but names, all keys are
names.
-/

set_option autoImplicit false

namespace Toolsmith

/-- The default has names for the keys of its objects. -/
def Notes.IsNamed (notes : Notes) : Prop :=
  ∀ default ∈ notes.default, default.hasNames = true

namespace Parameter

/-- All properties have names, and so have the fields in all defaults. -/
inductive IsNamed : Parameter → Prop
  | scalar (kind : ScalarKind) {notes : Notes} (own : notes.IsNamed) : IsNamed (.scalar kind notes)
  | choice (values : List String) {notes : Notes} (own : notes.IsNamed) :
      IsNamed (.choice values notes)
  | array {items : Parameter} {notes : Notes} (inside : IsNamed items) (own : notes.IsNamed) :
      IsNamed (.array items notes)
  | object {properties : List (String × Parameter)} (required : List String) {notes : Notes}
      (names : ∀ property ∈ properties, GraphQL.isName property.1 = true)
      (inside : ∀ property ∈ properties, IsNamed property.2) (own : notes.IsNamed) :
      IsNamed (.object properties required notes)
  | unexpanded {notes : Notes} (own : notes.IsNamed) : IsNamed (.unexpanded notes)
  | undefined (enum : String) : IsNamed (.undefined enum)

/-! The members of a JSON Schema. -/

theorem isName_keyword :
    ∀ key ∈ ["type", "enum", "items", "properties", "required", "description", "default"],
      GraphQL.isName key = true := by
  decide

theorem hasNames_assertions {type : String} {members : List (String × Json)} :
    (Json.obj (typeMember type :: members)).hasNames = true ↔
      ∀ member ∈ members, GraphQL.isName member.1 = true ∧ member.2.hasNames = true := by
  rw [Json.hasNames_obj, List.forall_mem_cons, typeMember]
  exact and_iff_right ⟨isName_keyword _ (by simp), rfl⟩

theorem named_notesToJson {notes : Notes} (own : notes.IsNamed) :
    ∀ member ∈ notesToJson notes,
      GraphQL.isName member.1 = true ∧ member.2.hasNames = true := by
  rintro ⟨key, json⟩ included
  rcases mem_notesToJson.mp included with ⟨rfl, text, _, rfl⟩ | ⟨rfl, given⟩
  · exact ⟨isName_keyword _ (by simp), rfl⟩
  · exact ⟨isName_keyword _ (by simp), own json given⟩

theorem named_requiredMember (names : List String) :
    ∀ member ∈ requiredMember names,
      GraphQL.isName member.1 = true ∧ member.2.hasNames = true := by
  rintro ⟨key, json⟩ included
  obtain ⟨_, rfl, rfl⟩ := mem_requiredMember.mp included
  exact ⟨isName_keyword _ (by simp), by simp⟩

mutual

theorem hasNames_toJson {parameter : Parameter} {json : Json} (named : parameter.IsNamed)
    (ok : parameter.toJson = .ok json) : json.hasNames = true := by
  match parameter with
  | .scalar kind notes =>
    cases named with
    | scalar _ own =>
        obtain rfl := Except.ok.inj ok
        exact hasNames_assertions.mpr (named_notesToJson own)
  | .choice values notes =>
    cases named with
    | choice _ own =>
        obtain rfl := Except.ok.inj ok
        rw [hasNames_assertions, List.forall_mem_cons]
        exact ⟨⟨isName_keyword _ (by simp), by simp⟩, named_notesToJson own⟩
  | .array items notes =>
    cases named with
    | array inside own =>
        simp only [toJson, Except.bind_eq_ok_iff] at ok
        obtain ⟨itemSchema, itemsOk, collected⟩ := ok
        obtain rfl := Except.ok.inj collected
        rw [hasNames_assertions, List.forall_mem_cons]
        exact ⟨⟨isName_keyword _ (by simp), hasNames_toJson inside itemsOk⟩, named_notesToJson own⟩
  | .object properties required notes =>
    cases named with
    | object _ names inside own =>
        simp only [toJson, Except.bind_eq_ok_iff] at ok
        obtain ⟨schemas, propertiesOk, collected⟩ := ok
        obtain rfl := Except.ok.inj collected
        rw [hasNames_assertions, List.forall_mem_cons, List.forall_mem_append]
        refine ⟨⟨isName_keyword _ (by simp), ?_⟩, named_requiredMember required,
          named_notesToJson own⟩
        exact Json.hasNames_obj.mpr (named_propertiesToJson names inside propertiesOk)
  | .unexpanded notes =>
    cases named with
    | unexpanded own =>
        obtain rfl := Except.ok.inj ok
        exact hasNames_assertions.mpr (named_notesToJson own)
  | .undefined enum => simp [toJson] at ok

theorem named_propertiesToJson {properties : List (String × Parameter)}
    {schemas : List (String × Json)}
    (names : ∀ property ∈ properties, GraphQL.isName property.1 = true)
    (inside : ∀ property ∈ properties, property.2.IsNamed)
    (ok : propertiesToJson properties = .ok schemas) :
    ∀ member ∈ schemas, GraphQL.isName member.1 = true ∧ member.2.hasNames = true := by
  match properties with
  | [] =>
    obtain rfl := Except.ok.inj ok
    exact nofun
  | (name, parameter) :: rest =>
    obtain ⟨ownName, otherNames⟩ := List.forall_mem_cons.mp names
    obtain ⟨own, others⟩ := List.forall_mem_cons.mp inside
    simp only [propertiesToJson, Except.bind_eq_ok_iff] at ok
    obtain ⟨schema, parameterOk, further, restOk, collected⟩ := ok
    obtain rfl := Except.ok.inj collected
    exact List.forall_mem_cons.mpr ⟨⟨ownName, hasNames_toJson own parameterOk⟩,
      named_propertiesToJson otherNames others restOk⟩

end

/-! The parameters of a schema. -/

theorem isNamed_bare : ({} : Notes).IsNamed :=
  nofun

theorem isNamed_describedBy (description : Option String) :
    (Notes.describedBy description).IsNamed :=
  nofun

theorem isNamed_attach {declared : GraphQL.InputValue} {notes : Notes} (named : declared.IsNamed)
    (own : notes.IsNamed) : (Notes.attach declared notes).IsNamed := by
  intro default given
  rcases Option.or_eq_some_iff.mp given with declaredDefault | ⟨_, ownDefault⟩
  · exact named.2 default declaredDefault
  · exact own default ownDefault

theorem IsNamed.attach {parameter : Parameter} {declared : GraphQL.InputValue}
    (named : parameter.IsNamed) (declaredNamed : declared.IsNamed) :
    (parameter.mapNotes (.attach declared)).IsNamed := by
  cases named with
  | scalar kind own => exact .scalar kind (isNamed_attach declaredNamed own)
  | choice values own => exact .choice values (isNamed_attach declaredNamed own)
  | array inside own => exact .array inside (isNamed_attach declaredNamed own)
  | object required names inside own =>
      exact .object required names inside (isNamed_attach declaredNamed own)
  | unexpanded own => exact .unexpanded (isNamed_attach declaredNamed own)
  | undefined enum => exact .undefined enum

theorem isNamed_objectOf {ofType : GraphQL.TypeRef → Parameter} {values : List GraphQL.InputValue}
    {notes : Notes} (named : ∀ value ∈ values, value.IsNamed)
    (inside : ∀ value ∈ values, (ofType value.type).IsNamed) (own : notes.IsNamed) :
    (objectOf ofType values notes).IsNamed := by
  refine .object _ ?_ ?_ own
  · exact List.forall_mem_map.mpr fun value member => (named value member).1
  · exact List.forall_mem_map.mpr fun value member =>
      (inside value member).attach (named value member)

theorem isNamed_ofScalar (name : String) : (ofScalar name).IsNamed := by
  unfold ofScalar
  split
  · exact .scalar _ nofun
  · exact .scalar _ isNamed_bare

end Parameter

namespace GraphQL.Schema

variable {schema : Schema}

theorem isNamed_of_parameterOf (named : schema.IsNamed) {expanding : List String} {type : TypeRef}
    {parameter : Parameter} (maps : schema.ParameterOf expanding type parameter) :
    parameter.IsNamed := by
  induction maps with
  | list _ _ inductionHypothesis => exact .array inductionHypothesis Parameter.isNamed_bare
  | choice => exact .choice _ (Parameter.isNamed_describedBy _)
  | undefined => exact .undefined _
  | unexpanded => exact .unexpanded (Parameter.isNamed_describedBy _)
  | object _ found _ _ inductionHypothesis =>
      have fieldsNamed := (named _ (List.mem_of_find?_eq_some found)).kind
      exact Parameter.isNamed_objectOf fieldsNamed (fun field _ => inductionHypothesis field.type)
        (Parameter.isNamed_describedBy _)
  | scalar => exact Parameter.isNamed_ofScalar _
  | text => exact .scalar _ Parameter.isNamed_bare

/-- The JSON Schema for the arguments of a field has names for all its keys. -/
theorem hasNames_parameters (named : schema.IsNamed) {arguments : List InputValue}
    (ownNames : ∀ argument ∈ arguments, argument.IsNamed) {json : Json}
    (ok : (schema.parameters arguments).toJson = .ok json) : json.hasNames = true := by
  refine Parameter.hasNames_toJson
    (Parameter.isNamed_objectOf ownNames ?_ Parameter.isNamed_bare) ok
  intro argument _
  exact isNamed_of_parameterOf named (parameterOf_parameterWithin schema [] argument.type)

end GraphQL.Schema

end Toolsmith

import Toolsmith.Parameter
import Toolsmith.Proofs.Json.Validation
import Toolsmith.Proofs.Outcome

/-!
What a parameter accepts. The JSON Schema of a parameter has exactly the values valid that the
parameter accepts; notes have no say in it.
-/

set_option autoImplicit false

namespace Toolsmith.Parameter

mutual

def Accepts : Parameter → Json → Prop
  | .scalar kind _, value => value.hasType kind.text = true
  | .choice values _, value => ∃ text ∈ values, value = .str text
  | .array items _, value =>
    ∃ elements, value = .arr elements ∧ ∀ element ∈ elements, items.Accepts element
  | .object properties required _, value =>
    ∃ members, value = .obj members ∧ (∀ name ∈ required, name ∈ members.map Prod.fst) ∧
      AllAccept properties members
  | .unexpanded _, value => ∃ members, value = .obj members
  | .undefined _, _ => False

/-- Each property accepts the members of its name. -/
def AllAccept : List (String × Parameter) → List (String × Json) → Prop
  | [], _ => True
  | (name, parameter) :: rest, members =>
    (∀ member ∈ members, member.1 = name → parameter.Accepts member.2) ∧ AllAccept rest members

end

theorem allAccept_iff {properties : List (String × Parameter)} {members : List (String × Json)} :
    AllAccept properties members ↔
      ∀ property ∈ properties, ∀ member ∈ members,
        member.1 = property.1 → property.2.Accepts member.2 := by
  induction properties with
  | nil => simp [AllAccept]
  | cons property rest inductionHypothesis =>
      obtain ⟨name, parameter⟩ := property
      rw [AllAccept, inductionHypothesis, List.forall_mem_cons]

theorem accepts_mapNotes {parameter : Parameter} {change : Notes → Notes} {value : Json} :
    (parameter.mapNotes change).Accepts value ↔ parameter.Accepts value := by
  cases parameter <;> simp [mapNotes, Accepts]

/-- An object made of declared values accepts a map that holds the required ones, and under each
declared name what the parameter of its type accepts. -/
theorem accepts_objectOf {ofType : GraphQL.TypeRef → Parameter} {values : List GraphQL.InputValue}
    {notes : Notes} {value : Json} :
    (objectOf ofType values notes).Accepts value ↔
      ∃ members, value = .obj members ∧
        (∀ declared ∈ values, declared.type.isRequired = true →
          declared.name ∈ members.map Prod.fst) ∧
        ∀ declared ∈ values, ∀ member ∈ members, member.1 = declared.name →
          (ofType declared.type).Accepts member.2 := by
  have required : ∀ members : List (String × Json),
      (∀ name ∈ (values.filter (·.type.isRequired)).map (·.name), name ∈ members.map Prod.fst) ↔
        ∀ declared ∈ values, declared.type.isRequired = true →
          declared.name ∈ members.map Prod.fst := by
    intro members
    simp only [List.forall_mem_map, List.mem_filter, and_imp]
  simp only [objectOf, Accepts, required, allAccept_iff]
  simp only [List.forall_mem_map, accepts_mapNotes]

/-! Validity against the JSON Schema. -/

mutual

theorem validates_toJson {parameter : Parameter} {schema value : Json}
    (ok : parameter.toJson = .ok schema) :
    Json.Validates schema value ↔ parameter.Accepts value := by
  match parameter with
  | .scalar kind notes =>
    obtain rfl := Except.ok.inj ok
    simp [Json.validates_iff, typeMember, Accepts]
  | .choice values notes =>
    obtain rfl := Except.ok.inj ok
    have shape : Json.Validates (.obj (typeMember "string" ::
          ("enum", .arr (values.map .str)) :: notesToJson notes)) value ↔
        (∃ text, value = .str text) ∧ ∃ text ∈ values, .str text = value := by
      simp [Json.validates_iff, typeMember, Json.hasType_string]
    rw [shape, Accepts]
    constructor
    · rintro ⟨_, text, member, rfl⟩
      exact ⟨text, member, rfl⟩
    · rintro ⟨text, member, rfl⟩
      exact ⟨⟨text, rfl⟩, text, member, rfl⟩
  | .array items notes =>
    simp only [toJson, Except.bind_eq_ok_iff] at ok
    obtain ⟨itemSchema, itemsOk, collected⟩ := ok
    obtain rfl := Except.ok.inj collected
    have shape : Json.Validates (.obj (typeMember "array" ::
          ("items", itemSchema) :: notesToJson notes)) value ↔
        (∃ elements, value = .arr elements) ∧ ∀ item ∈ value.items, items.Accepts item := by
      simp [Json.validates_iff, typeMember, Json.hasType_array, validates_toJson itemsOk]
    rw [shape, Accepts]
    constructor
    · rintro ⟨⟨elements, rfl⟩, each⟩
      exact ⟨elements, rfl, each⟩
    · rintro ⟨elements, rfl, each⟩
      exact ⟨⟨elements, rfl⟩, each⟩
  | .object properties required notes =>
    simp only [toJson, Except.bind_eq_ok_iff] at ok
    obtain ⟨schemas, propertiesOk, collected⟩ := ok
    obtain rfl := Except.ok.inj collected
    have shape : Json.Validates (.obj (typeMember "object" :: ("properties", .obj schemas) ::
          (requiredMember required ++ notesToJson notes))) value ↔
        (∃ members, value = .obj members) ∧ AllAccept properties value.members ∧
          (required ≠ [] → ∀ members, value = .obj members →
            ∀ name ∈ required, name ∈ members.map Prod.fst) := by
      rw [← validates_propertiesToJson propertiesOk]
      simp [Json.validates_iff, typeMember, Json.hasType_object]
    rw [shape, Accepts]
    constructor
    · rintro ⟨⟨members, rfl⟩, each, present⟩
      refine ⟨members, rfl, fun name member => ?_, each⟩
      exact present (List.ne_nil_of_mem member) members rfl name member
    · rintro ⟨members, rfl, present, each⟩
      refine ⟨⟨members, rfl⟩, each, ?_⟩
      intro _ declared same
      obtain rfl := Json.obj.inj same
      exact present
  | .unexpanded notes =>
    obtain rfl := Except.ok.inj ok
    simp [Json.validates_iff, typeMember, Json.hasType_object, Accepts]
  | .undefined enum => simp [toJson] at ok

theorem validates_propertiesToJson {properties : List (String × Parameter)}
    {schemas : List (String × Json)} {members : List (String × Json)}
    (ok : propertiesToJson properties = .ok schemas) :
    (∀ property ∈ schemas, ∀ member ∈ members,
        member.1 = property.1 → Json.Validates property.2 member.2) ↔
      AllAccept properties members := by
  match properties with
  | [] =>
    obtain rfl := Except.ok.inj ok
    simp [AllAccept]
  | (name, parameter) :: rest =>
    simp only [propertiesToJson, Except.bind_eq_ok_iff] at ok
    obtain ⟨schema, parameterOk, others, restOk, collected⟩ := ok
    obtain rfl := Except.ok.inj collected
    rw [AllAccept, ← validates_propertiesToJson restOk, List.forall_mem_cons]
    simp only [validates_toJson parameterOk]

end

end Toolsmith.Parameter

import Toolsmith.Proofs.Parameter.FiniteDefaults
import Toolsmith.Proofs.Parameter.Occurrence

/-!
The shape of JSON Schemas. At every place a JSON Schema has the keywords that the GraphQL type there
calls for, and no others: what the type of the values is, what the items of a list are, which values
an enum has, which fields an input object has and which of them may not be left out. The declaration
at the place adds a description and a default.
-/

set_option autoImplicit false

namespace Toolsmith

/-- One step down in a JSON Schema: to what the items have to be, or to one of the properties. -/
inductive Json.LeadsTo : Json → Json → Prop
  | items {schema inside : Json} (found : schema.member? "items" = some inside) :
      LeadsTo schema inside
  | property {schema inside : Json} {name : String} {members : List (String × Json)}
      (expanded : schema.member? "properties" = some (.obj members))
      (member : (name, inside) ∈ members) : LeadsTo schema inside

namespace Parameter

/-- All keywords there are in a JSON Schema, in their order. -/
def keywords : List String :=
  ["type", "enum", "items", "properties", "required", "description", "default"]

/-- The types of values that a JSON Schema may ask for. -/
def typeWords : List String :=
  ["string", "integer", "number", "boolean", "array", "object"]

end Parameter

namespace GraphQL

/-- The names of the declared values that may not be left out, in the order of declaration. -/
def requiredNames (values : List InputValue) : List String :=
  (values.filter (·.type.isRequired)).map (·.name)

theorem lookup_requiredNames (values : List InputValue) :
    (Parameter.requiredMember (requiredNames values)).lookup "required" =
      if requiredNames values = [] then none
      else some (.arr ((requiredNames values).map .str)) := by
  by_cases none : requiredNames values = []
  · rw [if_pos none, none]
    rfl
  · rw [if_neg none, Parameter.requiredMember, if_neg (by simpa using none)]
    rfl

/-- A JSON Schema for an object that has the declared values as properties. -/
structure HasDeclared (values : List InputValue) (json : Json) : Prop where
  type : json.member? "type" = some (.str "object")
  properties : ∃ members, json.member? "properties" = some (.obj members) ∧
    members.map Prod.fst = values.map (·.name)
  /-- What may not be null is required; if there is nothing of that kind, nothing is said. -/
  required : json.member? "required" =
    if requiredNames values = [] then none else some (.arr ((requiredNames values).map .str))

namespace Schema

variable {schema : Schema}

/-- The type of the values that are given where a GraphQL type is declared. What is no input type
is given as a text. -/
def typeWord (schema : Schema) : TypeRef → String
  | .list _ _ => "array"
  | .named name _ =>
    match schema.kind? name with
    | some (.input _) => "object"
    | some .scalar =>
      if name = "Int" then "integer"
      else if name = "Float" then "number"
      else if name = "Boolean" then "boolean"
      else "string"
    | _ => "string"

/-- A JSON Schema that mirrors the GraphQL type and the declaration at a place. -/
structure IsWellFormed (schema : Schema) (place : Occurrence) : Prop where
  /-- No keyword stands twice, and nothing else stands among them. -/
  keywords : ∃ members, place.json = .obj members ∧
    (members.map Prod.fst).Sublist Parameter.keywords
  type : place.json.member? "type" = some (.str (schema.typeWord place.type)) ∧
    schema.typeWord place.type ∈ Parameter.typeWords
  items : (∃ inside, place.json.member? "items" = some inside) ↔
    place.json.member? "type" = some (.str "array")
  enum : ∀ found, place.json.member? "enum" = some found ↔
    ∃ name required values, place.type = .named name required ∧
      schema.kind? name = some (.enum (some values)) ∧ found = .arr (values.map .str)
  object : ∀ found, place.json.member? "properties" = some found →
    ∃ name required fields, place.type = .named name required ∧
      schema.kind? name = some (.input fields) ∧ HasDeclared fields place.json
  required : place.json.member? "properties" = none → place.json.member? "required" = none
  description : ∀ found, place.json.member? "description" = some found →
    ∃ text, text ≠ "" ∧ found = .str text
  /-- There is a default where one is declared, and it is the declared one. -/
  default : place.json.member? "default" = place.default
  /-- What the JSON Schema leads to stands at a place, too. -/
  reached : ∀ inside, place.json.LeadsTo inside →
    ∃ next, schema.StepsTo place next ∧ next.json = inside

/-- The JSON Schema at a place is well-formed, and so is all that it leads to. -/
structure IsWellFormedBelow (schema : Schema) (start : Occurrence) : Prop where
  places : ∀ place, Relation.ReflTransGen schema.StepsTo start place → schema.IsWellFormed place
  nodes : ∀ node, Relation.ReflTransGen Json.LeadsTo start.json node →
    ∃ place, Relation.ReflTransGen schema.StepsTo start place ∧ place.json = node

end Schema

end GraphQL

namespace GraphQL.Schema

variable {schema : Schema}

/-! What stands between the type and the notes. -/

/-- What a JSON Schema says beside the type and the notes. -/
inductive Asserts (schema : Schema) : TypeRef → List (String × Json) → Prop
  | list {items : TypeRef} {required : Bool} {inside : Json} :
      Asserts schema (.list items required) [("items", inside)]
  | enum {name : String} {required : Bool} {values : List String}
      (kind : schema.kind? name = some (.enum (some values))) :
      Asserts schema (.named name required) [("enum", .arr (values.map .str))]
  | input {name : String} {required : Bool} {fields : List InputValue}
      {members : List (String × Json)} (kind : schema.kind? name = some (.input fields))
      (names : members.map Prod.fst = fields.map (·.name)) :
      Asserts schema (.named name required)
        (("properties", .obj members) :: Parameter.requiredMember (requiredNames fields))
  | nothing {name : String} {required : Bool}
      (noEnum : ∀ values, schema.kind? name ≠ some (.enum values)) :
      Asserts schema (.named name required) []

theorem typeWord_of_kind {name : String} {required : Bool} {kind : TypeKind}
    (found : schema.kind? name = some kind) (noScalar : kind ≠ .scalar)
    (noInput : ∀ fields, kind ≠ .input fields) :
    schema.typeWord (.named name required) = "string" := by
  rw [typeWord, found]
  cases kind with
  | scalar => contradiction
  | input fields => exact absurd rfl (noInput fields)
  | _ => rfl

theorem typeWord_of_input {name : String} {required : Bool} {fields : List InputValue}
    (input : schema.kind? name = some (.input fields)) :
    schema.typeWord (.named name required) = "object" := by
  rw [typeWord, input]

theorem typeWord_of_noInput {name : String} {required : Bool}
    (noInput : ∀ kind, schema.kind? name = some kind → kind.takesValues = false) :
    schema.typeWord (.named name required) = "string" := by
  cases found : schema.kind? name with
  | none => rw [typeWord, found]
  | some kind =>
      have noValues := noInput kind found
      apply typeWord_of_kind found
      · rintro rfl
        contradiction
      · rintro fields rfl
        contradiction

/-- A scalar has the word for it as its type, and nothing else but notes. -/
theorem exists_ofScalar_eq {name : String} (required : Bool)
    (scalar : schema.kind? name = some .scalar) :
    ∃ kind notes, Parameter.ofScalar name = .scalar kind notes ∧
      kind.text = schema.typeWord (.named name required) ∧ notes.description ≠ some "" := by
  simp only [typeWord, scalar]
  unfold Parameter.ofScalar
  split
  · subst name
    exact ⟨_, _, rfl, rfl, by decide⟩
  · refine ⟨_, _, rfl, ?_, by decide⟩
    unfold ScalarKind.ofScalarName
    split
    · rfl
    · rfl
    · rfl
    · rename_i noInt noFloat noBoolean
      rw [if_neg noInt, if_neg noFloat, if_neg noBoolean]
      rfl

/-- The properties of an object that is made of declared values are named after them. -/
theorem names_of_propertiesToJson {values : List InputValue} {made : InputValue → Parameter}
    {members : List (String × Json)}
    (ok : Parameter.propertiesToJson (values.map fun value => (value.name, made value)) =
      .ok members) :
    members.map Prod.fst = values.map (·.name) := by
  have each := List.forall₂_map_left_iff.mp (Parameter.forall₂_propertiesToJson ok)
  rw [eq_comm, ← List.forall₂_eq_eq_eq, List.forall₂_map_left_iff, List.forall₂_map_right_iff]
  exact each.imp fun _ _ own => own.1

/-- The JSON Schema of a parameter in its three parts, whatever a declaration makes of the notes. -/
theorem exists_asserted {expanding : List String} {type : TypeRef} {parameter : Parameter}
    (maps : schema.ParameterOf expanding type parameter) {change : Notes → Notes} {json : Json}
    (ok : (parameter.mapNotes change).toJson = .ok json) :
    ∃ asserted, schema.Asserts type asserted ∧
      json = .obj (("type", .str (schema.typeWord type)) ::
        (asserted ++ Parameter.notesToJson (change parameter.notes))) := by
  cases maps with
  | list required _ =>
      simp only [Parameter.mapNotes, Parameter.toJson, Except.bind_eq_ok_iff] at ok
      obtain ⟨inside, _, collected⟩ := ok
      obtain rfl := Except.ok.inj collected
      exact ⟨_, .list, rfl⟩
  | choice required type =>
      obtain rfl := Except.ok.inj ok
      have kind := kind?_of_type? type
      refine ⟨_, .enum kind, ?_⟩
      rw [typeWord_of_kind kind (by simp) (by simp)]
      rfl
  | undefined => simp [Parameter.mapNotes, Parameter.toJson] at ok
  | unexpanded required type =>
      obtain rfl := Except.ok.inj ok
      have kind := kind?_of_type? type
      refine ⟨[], .nothing (by simp [kind]), ?_⟩
      rw [typeWord_of_input kind]
      rfl
  | object required type =>
      have kind := kind?_of_type? type
      rw [mapNotes_objectOf, Parameter.objectOf] at ok
      simp only [Parameter.toJson, Except.bind_eq_ok_iff] at ok
      obtain ⟨members, propertiesOk, collected⟩ := ok
      obtain rfl := Except.ok.inj collected
      refine ⟨_, .input kind (names_of_propertiesToJson propertiesOk), ?_⟩
      rw [typeWord_of_input kind]
      rfl
  | scalar required type =>
      have kind := kind?_of_type? type
      obtain ⟨word, notes, made, same, _⟩ := exists_ofScalar_eq required kind
      rw [made] at ok
      obtain rfl := Except.ok.inj ok
      refine ⟨[], .nothing (by simp [kind]), ?_⟩
      rw [← same, made]
      rfl
  | text required noInput =>
      obtain rfl := Except.ok.inj ok
      refine ⟨[], .nothing fun values found => ?_, ?_⟩
      · exact absurd (noInput _ found) (by simp [TypeKind.takesValues])
      · rw [typeWord_of_noInput noInput]
        rfl

/-! Notes. -/

end GraphQL.Schema

theorem nonemptyDescription_ne (description : Option String) :
    nonemptyDescription description ≠ some "" := by
  intro same
  have nonempty := (Option.filter_eq_some_iff.mp same).2
  simp at nonempty

/-- A declaration says nothing empty either, and the default is the declared one. -/
theorem Occurrence.annotate_eq (place : Occurrence) {notes : Notes}
    (told : notes.description ≠ some "") (bare : notes.default = none) :
    (place.annotate notes).description ≠ some "" ∧
      (place.annotate notes).default = place.default := by
  obtain ⟨_, declared, _, _⟩ := place
  cases declared with
  | none => exact ⟨told, bare⟩
  | some value =>
      refine ⟨fun same => ?_, ?_⟩
      · rcases Option.or_eq_some_iff.mp same with own | ⟨_, below⟩
        · exact nonemptyDescription_ne value.description own
        · exact told below
      · simp [annotate, Notes.attach, bare, default]

namespace GraphQL.Schema

variable {schema : Schema} {place : Occurrence}

theorem description_parameterOf {expanding : List String} {type : TypeRef} {parameter : Parameter}
    (maps : schema.ParameterOf expanding type parameter) :
    parameter.notes.description ≠ some "" := by
  cases maps with
  | choice => exact nonemptyDescription_ne _
  | unexpanded => exact nonemptyDescription_ne _
  | object => exact nonemptyDescription_ne _
  | scalar required type =>
      obtain ⟨_, _, made, _, told⟩ := exists_ofScalar_eq required (kind?_of_type? type)
      rw [made]
      exact told
  | _ => exact nofun

/-- The JSON Schema at a place in its three parts. -/
structure IsMadeOf (schema : Schema) (place : Occurrence) (asserted : List (String × Json))
    (notes : Notes) : Prop where
  asserts : schema.Asserts place.type asserted
  json : place.json =
    .obj (("type", .str (schema.typeWord place.type)) ::
      (asserted ++ Parameter.notesToJson notes))
  told : notes.description ≠ some ""
  default : notes.default = place.default

theorem IsMade.exists_isMadeOf (made : schema.IsMade place) :
    ∃ asserted notes, schema.IsMadeOf place asserted notes := by
  have maps := parameterOf_parameterWithin schema place.enclosing place.type
  obtain ⟨asserted, asserts, json⟩ := exists_asserted maps made.json
  obtain ⟨told, default⟩ :=
    place.annotate_eq (description_parameterOf maps) (default_parameterOf maps)
  exact ⟨asserted, _, asserts, json, told, default⟩

/-! Keywords. -/

theorem typeWord_named_mem (schema : Schema) (name : String) (required : Bool) :
    schema.typeWord (.named name required) ∈
      ["string", "integer", "number", "boolean", "object"] := by
  rw [typeWord]
  split
  · decide
  · split
    · decide
    · split
      · decide
      · split
        · decide
        · decide
  · decide

theorem typeWord_mem (type : TypeRef) : schema.typeWord type ∈ Parameter.typeWords := by
  cases type with
  | list =>
      rw [typeWord]
      decide
  | named name required =>
      have known := typeWord_named_mem schema name required
      simp only [Parameter.typeWords, List.mem_cons, List.not_mem_nil, or_false] at known ⊢
      tauto

/-- Only lists are given as arrays. -/
theorem typeWord_eq_array_iff {type : TypeRef} :
    schema.typeWord type = "array" ↔ ∃ items required, type = .list items required := by
  cases type with
  | list items required => exact iff_of_true rfl ⟨items, required, rfl⟩
  | named name required =>
      apply iff_of_false
      · intro array
        have known := typeWord_named_mem schema name required
        rw [array] at known
        exact absurd known (by decide)
      · rintro ⟨_, _, list⟩
        contradiction

theorem keys_requiredMember_sublist (names : List String) :
    ((Parameter.requiredMember names).map Prod.fst).Sublist ["required"] := by
  unfold Parameter.requiredMember
  split
  · exact List.nil_sublist _
  · exact List.Sublist.refl _

theorem Asserts.keys_sublist {type : TypeRef} {asserted : List (String × Json)}
    (asserts : schema.Asserts type asserted) :
    (asserted.map Prod.fst).Sublist ["enum", "items", "properties", "required"] := by
  cases asserts with
  | list => exact (List.nil_sublist _).cons_cons _ |>.cons _
  | enum => exact (List.nil_sublist _).cons_cons _
  | input =>
      rw [List.map_cons]
      exact (((keys_requiredMember_sublist _).cons_cons _).cons _).cons _
  | nothing => exact List.nil_sublist _

theorem keys_notesToJson_sublist (notes : Notes) :
    ((Parameter.notesToJson notes).map Prod.fst).Sublist ["description", "default"] := by
  obtain ⟨description, default⟩ := notes
  have first : ((description.toList.map fun text => ("description", Json.str text)).map
      Prod.fst).Sublist ["description"] := by
    cases description with
    | none => exact List.nil_sublist _
    | some text => exact List.Sublist.refl _
  have second : ((default.toList.map fun value => ("default", value)).map
      Prod.fst).Sublist ["default"] := by
    cases default with
    | none => exact List.nil_sublist _
    | some value => exact List.Sublist.refl _
  rw [Parameter.notesToJson, List.map_append]
  exact first.append second

theorem lookup_eq_none_of_keys {members : List (String × Json)} {keys : List String}
    (sublist : (members.map Prod.fst).Sublist keys) {key : String} (other : key ∉ keys) :
    members.lookup key = none := by
  rw [List.lookup_eq_none_iff]
  intro member included
  rw [bne_iff_ne]
  rintro rfl
  exact other (sublist.subset (List.mem_map_of_mem included))

namespace IsMadeOf

variable {asserted : List (String × Json)} {notes : Notes}

theorem keywords (made : schema.IsMadeOf place asserted notes) :
    ∃ members, place.json = .obj members ∧
      (members.map Prod.fst).Sublist Parameter.keywords := by
  refine ⟨_, made.json, ?_⟩
  rw [List.map_cons, List.map_append]
  exact (made.asserts.keys_sublist.append (keys_notesToJson_sublist notes)).cons_cons "type"

theorem member?_type (made : schema.IsMadeOf place asserted notes) :
    place.json.member? "type" = some (.str (schema.typeWord place.type)) := by
  rw [made.json]
  rfl

theorem member?_eq_lookup (made : schema.IsMadeOf place asserted notes) {key : String}
    (noType : key ≠ "type") :
    place.json.member? key = (asserted ++ Parameter.notesToJson notes).lookup key := by
  rw [made.json, Json.member?, List.lookup_cons, beq_eq_false_iff_ne.mpr noType]

/-- What is neither the type nor a note is asserted. -/
theorem member?_asserted (made : schema.IsMadeOf place asserted notes) {key : String}
    (member : key ∈ ["enum", "items", "properties", "required"]) :
    place.json.member? key = asserted.lookup key := by
  have apart : ∀ key ∈ ["enum", "items", "properties", "required"],
      key ≠ "type" ∧ key ∉ ["description", "default"] := by decide
  obtain ⟨noType, noNote⟩ := apart key member
  rw [made.member?_eq_lookup noType, List.lookup_append,
    lookup_eq_none_of_keys (keys_notesToJson_sublist notes) noNote, Option.or_none]

/-- What is a note is neither the type nor asserted. -/
theorem member?_note (made : schema.IsMadeOf place asserted notes) {key : String}
    (member : key ∈ ["description", "default"]) :
    place.json.member? key = (Parameter.notesToJson notes).lookup key := by
  have apart : ∀ key ∈ ["description", "default"],
      key ≠ "type" ∧ key ∉ ["enum", "items", "properties", "required"] := by decide
  obtain ⟨noType, notAsserted⟩ := apart key member
  rw [made.member?_eq_lookup noType, List.lookup_append,
    lookup_eq_none_of_keys made.asserts.keys_sublist notAsserted, Option.none_or]

theorem items_iff (made : schema.IsMadeOf place asserted notes) :
    (∃ inside, place.json.member? "items" = some inside) ↔
      place.json.member? "type" = some (.str "array") := by
  rw [made.member?_type, made.member?_asserted (by decide), Option.some.injEq, Json.str.injEq,
    typeWord_eq_array_iff]
  have asserts := made.asserts
  cases same : place.type with
  | list items required =>
      rw [same] at asserts
      cases asserts with
      | list => exact iff_of_true ⟨_, rfl⟩ ⟨_, _, rfl⟩
  | named name required =>
      rw [same] at asserts
      have absent : asserted.lookup "items" = none := by
        cases asserts with
        | enum => rfl
        | input => simp [List.lookup_cons, Parameter.lookup_requiredMember]
        | nothing => rfl
      apply iff_of_false
      · rw [absent]
        exact nofun
      · rintro ⟨_, _, list⟩
        contradiction

theorem enum_iff (made : schema.IsMadeOf place asserted notes) (found : Json) :
    place.json.member? "enum" = some found ↔
      ∃ name required values, place.type = .named name required ∧
        schema.kind? name = some (.enum (some values)) ∧ found = .arr (values.map .str) := by
  rw [made.member?_asserted (by decide)]
  have asserts := made.asserts
  generalize place.type = type at asserts
  constructor
  · intro given
    cases asserts with
    | list => simp [List.lookup_cons] at given
    | enum kind =>
        obtain rfl := Option.some.inj given
        exact ⟨_, _, _, rfl, kind, rfl⟩
    | input => simp [List.lookup_cons, Parameter.lookup_requiredMember] at given
    | nothing => contradiction
  · rintro ⟨name, required, values, rfl, kind, rfl⟩
    cases asserts with
    | enum own =>
        rw [kind, Option.some.injEq, TypeKind.enum.injEq, Option.some.injEq] at own
        rw [own]
        rfl
    | input own =>
        rw [kind] at own
        simp at own
    | nothing noEnum => exact absurd kind (noEnum _)

/-- Properties are asserted of input objects only. -/
theorem asserted_of_properties (made : schema.IsMadeOf place asserted notes) {found : Json}
    (given : place.json.member? "properties" = some found) :
    ∃ name required fields members, place.type = .named name required ∧
      schema.kind? name = some (.input fields) ∧ found = .obj members ∧
      members.map Prod.fst = fields.map (·.name) ∧
      asserted =
        ("properties", .obj members) :: Parameter.requiredMember (requiredNames fields) := by
  rw [made.member?_asserted (by decide)] at given
  have asserts := made.asserts
  generalize place.type = type at asserts
  cases asserts with
  | list => simp [List.lookup_cons] at given
  | enum => simp [List.lookup_cons] at given
  | input kind names =>
      obtain rfl := Option.some.inj given
      exact ⟨_, _, _, _, rfl, kind, rfl, names, rfl⟩
  | nothing => contradiction

theorem object (made : schema.IsMadeOf place asserted notes) {found : Json}
    (given : place.json.member? "properties" = some found) :
    ∃ name required fields, place.type = .named name required ∧
      schema.kind? name = some (.input fields) ∧ HasDeclared fields place.json := by
  obtain ⟨name, required, fields, members, named, kind, rfl, names, same⟩ :=
    made.asserted_of_properties given
  refine ⟨name, required, fields, named, kind, ?_, ⟨members, given, names⟩, ?_⟩
  · rw [made.member?_type, named, typeWord_of_input kind]
  · rw [made.member?_asserted (by decide), same]
    exact lookup_requiredNames fields

theorem required (made : schema.IsMadeOf place asserted notes)
    (flat : place.json.member? "properties" = none) : place.json.member? "required" = none := by
  rw [made.member?_asserted (by decide)] at flat ⊢
  have asserts := made.asserts
  generalize place.type = type at asserts
  cases asserts with
  | list => rfl
  | enum => rfl
  | input => simp at flat
  | nothing => rfl

theorem description (made : schema.IsMadeOf place asserted notes) {found : Json}
    (given : place.json.member? "description" = some found) :
    ∃ text, text ≠ "" ∧ found = .str text := by
  rw [made.member?_note (by decide), (Parameter.lookup_notesToJson notes).1,
    Option.map_eq_some_iff] at given
  obtain ⟨text, described, rfl⟩ := given
  exact ⟨text, fun empty => made.told (empty ▸ described), rfl⟩

theorem member?_default (made : schema.IsMadeOf place asserted notes) :
    place.json.member? "default" = place.default := by
  rw [made.member?_note (by decide), (Parameter.lookup_notesToJson notes).2, made.default]

/-- Where no key stands twice, each member is found under its key. -/
theorem lookup_eq_some_of_mem {members : List (String × Json)}
    (distinct : (members.map Prod.fst).Nodup) {name : String} {inside : Json}
    (member : (name, inside) ∈ members) : members.lookup name = some inside := by
  obtain ⟨before, behind, rfl⟩ := List.append_of_mem member
  refine List.lookup_eq_some_iff.mpr ⟨before, behind, rfl, fun other included => ?_⟩
  rw [List.map_append, List.nodup_append] at distinct
  rw [bne_iff_ne]
  intro same
  exact distinct.2.2 _ (List.mem_map_of_mem included) _ List.mem_cons_self same.symm

theorem reached (once : schema.DeclaresOnce) (made : schema.IsMadeOf place asserted notes)
    {inside : Json} (leads : place.json.LeadsTo inside) :
    ∃ next, schema.StepsTo place next ∧ next.json = inside := by
  cases leads with
  | items found =>
      have array := made.items_iff.mp ⟨inside, found⟩
      rw [made.member?_type, Option.some.injEq, Json.str.injEq, typeWord_eq_array_iff] at array
      obtain ⟨items, required, list⟩ := array
      obtain ⟨enclosing, declared, type, json⟩ := place
      subst list
      exact ⟨_, .items found, rfl⟩
  | @property key others expanded member =>
      obtain ⟨name, required, fields, members, named, kind, same, names, _⟩ :=
        made.asserted_of_properties expanded
      obtain rfl := Json.obj.inj same
      have distinct : (others.map Prod.fst).Nodup := by
        obtain ⟨definition, found, input⟩ := Option.map_eq_some_iff.mp kind
        have declaredOnce := once definition (List.mem_of_find?_eq_some found)
        rw [input] at declaredOnce
        rw [names]
        exact declaredOnce
      have declared : key ∈ fields.map (·.name) := names ▸ List.mem_map_of_mem member
      obtain ⟨field, included, rfl⟩ := List.mem_map.mp declared
      obtain ⟨enclosing, declared, type, json⟩ := place
      subst named
      exact ⟨_, .property kind included expanded (lookup_eq_some_of_mem distinct member), rfl⟩

theorem isWellFormed (once : schema.DeclaresOnce) (made : schema.IsMadeOf place asserted notes) :
    schema.IsWellFormed place where
  keywords := made.keywords
  type := ⟨made.member?_type, typeWord_mem place.type⟩
  items := made.items_iff
  enum := made.enum_iff
  object := fun _ given => made.object given
  required := made.required
  description := fun _ given => made.description given
  default := made.member?_default
  reached := fun _ leads => made.reached once leads

end IsMadeOf

/-! What a way keeps. -/

/-- Whatever a JSON Schema leads to stands at a place, step by step. -/
theorem exists_place_of_leadsTo {start : Occurrence}
    (wellFormed : ∀ place, Relation.ReflTransGen schema.StepsTo start place →
      schema.IsWellFormed place)
    {node : Json} (leads : Relation.ReflTransGen Json.LeadsTo start.json node) :
    ∃ place, Relation.ReflTransGen schema.StepsTo start place ∧ place.json = node := by
  induction leads with
  | refl => exact ⟨start, .refl, rfl⟩
  | tail _ step inductionHypothesis =>
      obtain ⟨place, way, rfl⟩ := inductionHypothesis
      obtain ⟨next, stepped, same⟩ := (wellFormed place way).reached _ step
      exact ⟨next, way.tail stepped, same⟩

theorem IsMade.isWellFormedBelow (once : schema.DeclaresOnce) {start : Occurrence}
    (made : schema.IsMade start) : schema.IsWellFormedBelow start := by
  have places : ∀ place, Relation.ReflTransGen schema.StepsTo start place →
      schema.IsWellFormed place := by
    intro place way
    obtain ⟨_, _, madeOf⟩ := (made.way once way).exists_isMadeOf
    exact madeOf.isWellFormed once
  exact ⟨places, fun _ leads => exists_place_of_leadsTo places leads⟩

/-! What a document declares. -/

end GraphQL.Schema

namespace GraphQL

/-- The fields of an input object, from all that is said about it, in the order of the text. -/
def Document.inputValuesOf (document : Document) (name : String) : List InputValue :=
  (document.declarationsOf name).flatMap fun declared =>
    declared.body.inputFields.map InputValue.ofDefinition

/-- The names of the values of an enum, from all that is said about it, in the order of the text. -/
def Document.choicesOf (document : Document) (name : String) : List String :=
  (document.declarationsOf name).flatMap fun declared => declared.body.enumValues.map (·.name)

/-- A type that is not built in is made of all that is declared under its name. -/
theorem Document.exists_ofBodies_of_kind? {document : Document} {name : String} {kind : TypeKind}
    (notBuiltIn : name ∉ BuiltIn.typeNames) (found : document.schema.kind? name = some kind) :
    ∃ body, kind = .ofBodies body ((document.declarationsOf name).map (·.body)) := by
  obtain ⟨definition, typed, rfl⟩ := Option.map_eq_some_iff.mp found
  obtain rfl : definition.name = name := by simpa using List.find?_some typed
  rcases List.mem_append.mp (List.mem_of_find?_eq_some typed) with builtIn | defined
  · exact absurd (List.mem_map_of_mem builtIn) notBuiltIn
  · obtain ⟨declaration, _, _, _, made⟩ := exists_declaration_of_mem_definedTypes defined
    exact ⟨declaration.body, made⟩

theorem Document.input_eq_inputValuesOf {document : Document} {name : String}
    {fields : List InputValue} (notBuiltIn : name ∉ BuiltIn.typeNames)
    (found : document.schema.kind? name = some (.input fields)) :
    fields = document.inputValuesOf name := by
  obtain ⟨body, made⟩ := exists_ofBodies_of_kind? notBuiltIn found
  cases body with
  | input =>
      rw [TypeKind.ofBodies, TypeKind.input.injEq, List.flatMap_map, List.map_flatMap] at made
      exact made
  | _ => contradiction

theorem Document.enum_eq_choicesOf {document : Document} {name : String} {values : List String}
    (notBuiltIn : name ∉ BuiltIn.typeNames)
    (found : document.schema.kind? name = some (.enum (some values))) :
    values = document.choicesOf name := by
  obtain ⟨body, made⟩ := exists_ofBodies_of_kind? notBuiltIn found
  cases body with
  | enum =>
      rw [TypeKind.ofBodies, enumValuesOf?, TypeKind.enum.injEq] at made
      split at made
      · rw [Option.some.injEq, List.flatMap_map, List.map_flatMap] at made
        exact made
      · contradiction
  | _ => contradiction

end GraphQL

namespace GraphQL.Schema

variable {schema : Schema}

/-- The arguments of a field are given as an object about which nothing else is said. -/
theorem hasDeclared_parameters {arguments : List InputValue} {json : Json}
    (ok : (schema.parameters arguments).toJson = .ok json) :
    (∃ members, json = .obj members ∧
      (members.map Prod.fst).Sublist ["type", "properties", "required"]) ∧
      HasDeclared arguments json := by
  simp only [parameters, Parameter.objectOf, Parameter.toJson, Except.bind_eq_ok_iff] at ok
  obtain ⟨members, propertiesOk, collected⟩ := ok
  obtain rfl := Except.ok.inj collected
  refine ⟨⟨_, rfl, ?_⟩, rfl, ⟨members, rfl, names_of_propertiesToJson propertiesOk⟩, ?_⟩
  · have noNotes : Parameter.notesToJson {} = [] := rfl
    rw [noNotes, List.append_nil]
    exact ((keys_requiredMember_sublist _).cons_cons _).cons_cons _
  · rw [← lookup_requiredNames]
    change List.lookup "required" (Parameter.requiredMember (requiredNames arguments) ++ []) = _
    rw [List.append_nil]

/-- All JSON Schemas of input types and of arguments mirror what a document declares: each says what
the GraphQL type and the declaration at its place say, in the order of the declarations, and nothing
else. What may be left out is what may be null itself, whatever the items of a list may be. -/
theorem parameter_schemas_mirror {source : String} (accepted : ofSource source = .ok schema) :
    (∃ document, Document.read? source = some document ∧
      ∀ name, name ∉ BuiltIn.typeNames →
        (∀ fields, schema.kind? name = some (.input fields) →
          fields = document.inputValuesOf name) ∧
          ∀ values, schema.kind? name = some (.enum (some values)) →
            values = document.choicesOf name) ∧
      (∀ type,
        ((∃ json, (schema.parameter type).toJson = .ok json) ↔
            schema.AvoidsUnusableEnums type) ∧
          ∀ json, (schema.parameter type).toJson = .ok json →
            schema.IsWellFormedBelow ⟨[], none, type, json⟩) ∧
        ∀ arguments,
          ((∃ json, (schema.parameters arguments).toJson = .ok json) ↔
              ∀ argument ∈ arguments, schema.AvoidsUnusableEnums argument.type) ∧
            ∀ json, (schema.parameters arguments).toJson = .ok json →
              (∃ members, json = .obj members ∧
                (members.map Prod.fst).Sublist ["type", "properties", "required"]) ∧
                HasDeclared arguments json ∧
                ∃ members, json.member? "properties" = some (.obj members) ∧
                  List.Forall₂ (fun argument member => argument.name = member.1 ∧
                    schema.IsWellFormedBelow ⟨[], some argument, argument.type, member.2⟩)
                    arguments members := by
  have once := declaresOnce_ofSource accepted
  refine ⟨?_, fun type => ⟨isDefined_parameter_iff, fun json ok => ?_⟩, fun arguments =>
    ⟨isDefined_parameters_iff, fun json ok => ?_⟩⟩
  · obtain ⟨document, read, _, rfl⟩ := ofSource_eq_ok_iff.mp accepted
    exact ⟨document, read, fun name notBuiltIn =>
      ⟨fun _ => Document.input_eq_inputValuesOf notBuiltIn,
        fun _ => Document.enum_eq_choicesOf notBuiltIn⟩⟩
  · exact (isMade_root ok).isWellFormedBelow once
  · obtain ⟨keys, declared⟩ := hasDeclared_parameters ok
    obtain ⟨members, held, _, each, _⟩ := Parameter.member?_objectOf ok
    refine ⟨keys, declared, members, held, each.imp ?_⟩
    rintro argument ⟨name, inside⟩ ⟨named, insideOk⟩
    have made : schema.IsMade ⟨[], some argument, argument.type, inside⟩ :=
      ⟨List.nodup_nil, List.nil_subset _, insideOk⟩
    exact ⟨named, made.isWellFormedBelow once⟩

/-- Only a list that may not be null itself is required, and a default may be null. -/
theorem parameter_schemas_mirror_lists :
    ∃ schema json c,
      Schema.ofSource
          ("enum E { B A } type Query { f(x: I): Int } " ++
            "input I { a: [Int!] b: [Int]! c: [[E!]!] = null d: Int! }") = .ok schema ∧
        (schema.parameter (.named "I" true)).toJson = .ok json ∧
        json.member? "required" = some (.arr [.str "b", .str "d"]) ∧
        Relation.ReflTransGen schema.StepsTo ⟨[], none, .named "I" true, json⟩ c ∧
        c.json.member? "type" = some (.str "array") ∧ c.json.member? "default" = some .null := by
  let a : InputValue := ⟨"a", none, .list (.named "Int" true) false, none⟩
  let b : InputValue := ⟨"b", none, .list (.named "Int" false) true, none⟩
  let c : InputValue := ⟨"c", none, .list (.list (.named "E" true) true) false, some .null⟩
  let d : InputValue := ⟨"d", none, .named "Int" true, none⟩
  obtain ⟨schema, accepted, checked⟩ := Except.exists_eq_ok_of_any
    (Schema.ofSource
      ("enum E { B A } type Query { f(x: I): Int } " ++
        "input I { a: [Int!] b: [Int]! c: [[E!]!] = null d: Int! }"))
    (fun schema =>
      schema.types.all (fun type => !type.kind.isUnusable) &&
        schema.type? "I" = some ⟨"I", none, .input [a, b, c, d]⟩)
    (by decide +kernel)
  simp only [Bool.and_eq_true, decide_eq_true_eq] at checked
  obtain ⟨usable, typed⟩ := checked
  have usable : ∀ type ∈ schema.types, type.kind.isUnusable = false := by simpa using usable
  have kind := kind?_of_type? typed
  obtain ⟨defined, mirrors⟩ := (parameter_schemas_mirror accepted).2.1 (.named "I" true)
  obtain ⟨json, ok⟩ := defined.mpr (avoidsUnusableEnums_of_types usable _)
  have wellFormed := (mirrors json ok).places
  obtain ⟨members, held, keys, _⟩ :=
    (isMade_root ok).members_of_notMem typed rfl List.not_mem_nil
  obtain ⟨_, _, fields, same, input, declared⟩ := (wellFormed _ .refl).object _ held
  obtain ⟨rfl, rfl⟩ := TypeRef.named.inj same
  rw [kind, Option.some.injEq, TypeKind.input.injEq] at input
  subst input
  -- The third property is the one for the nested list.
  obtain ⟨⟨_, _⟩, _, rfl, rfl, afterFirst⟩ := List.map_eq_cons_iff.mp keys
  obtain ⟨⟨_, _⟩, _, rfl, rfl, afterSecond⟩ := List.map_eq_cons_iff.mp afterFirst
  obtain ⟨⟨_, inside⟩, _, rfl, rfl, _⟩ := List.map_eq_cons_iff.mp afterSecond
  have toList : Relation.ReflTransGen schema.StepsTo ⟨[], none, .named "I" true, json⟩
      ⟨["I"], some c, c.type, inside⟩ :=
    .single (.property kind (by simp) held rfl)
  have list := wellFormed _ toList
  exact ⟨schema, json, _, accepted, ok, declared.required, toList, list.type.1, list.default⟩

end GraphQL.Schema

end Toolsmith

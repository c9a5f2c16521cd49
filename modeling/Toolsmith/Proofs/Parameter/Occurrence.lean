import Toolsmith.Proofs.GraphQL.Schema.Declarations
import Toolsmith.Proofs.Parameter.Acceptance
import Toolsmith.Proofs.Parameter.Notes

/-!
Where input objects occur in a JSON Schema. A place is known by the way that leads there, and an
input object is left without properties exactly where the way goes through its properties already.
What lies on other ways has no say, so the same object is expanded on each of them, and no way goes
through more objects than there are.
-/

set_option autoImplicit false

namespace Toolsmith

/-- A place in a JSON Schema, with what is known of it from the way there. -/
structure Occurrence where
  /-- The input objects whose properties the way goes through, the last one first. -/
  enclosing : List String
  /-- The argument or field that the place is the property of. -/
  declared : Option GraphQL.InputValue
  type : GraphQL.TypeRef
  json : Json

namespace Occurrence

/-- The description at a place: the one of the declaration, else the one of the type. -/
def description (place : Occurrence) (ofType : Option String) : Option String :=
  (place.declared.bind fun value => nonemptyDescription value.description).or
    (nonemptyDescription ofType)

def default (place : Occurrence) : Option Json :=
  place.declared.bind (·.default)

/-- What stands in place of an input object that is not expanded. -/
def stub (place : Occurrence) (ofType : Option String) : Json :=
  .obj
    (("type", .str "object") ::
      ((place.description ofType).toList.map (("description", .str ·)) ++
        place.default.toList.map (("default", ·))))

/-- What the declaration at a place makes of the notes on its type. -/
def annotate (place : Occurrence) (notes : Notes) : Notes :=
  place.declared.elim notes fun value => notes.attach value

end Occurrence

namespace GraphQL.Schema

variable {schema : Schema}

/-- One step down: to the items of a list, or to a property of an input object. -/
inductive StepsTo (schema : Schema) : Occurrence → Occurrence → Prop
  | items {enclosing : List String} {declared : Option InputValue} {items : TypeRef}
      {required : Bool} {json inside : Json} (found : json.member? "items" = some inside) :
      StepsTo schema ⟨enclosing, declared, .list items required, json⟩
        ⟨enclosing, none, items, inside⟩
  | property {enclosing : List String} {declared : Option InputValue} {name : String}
      {required : Bool} {json inside : Json} {fields : List InputValue} {field : InputValue}
      {members : List (String × Json)} (input : schema.kind? name = some (.input fields))
      (member : field ∈ fields) (expanded : json.member? "properties" = some (.obj members))
      (found : members.lookup field.name = some inside) :
      StepsTo schema ⟨enclosing, declared, .named name required, json⟩
        ⟨name :: enclosing, some field, field.type, inside⟩

/-- How a JSON Schema goes on at a place. An input object has no properties exactly where the way
goes through it already; where it has them, they are all its fields. -/
structure IsCutAtReentry (schema : Schema) (place : Occurrence) : Prop where
  /-- No way goes through an input object twice. -/
  distinct : place.enclosing.Nodup
  /-- No way goes through more input objects than there are types. -/
  bounded : place.enclosing.length ≤ schema.types.length
  list : ∀ items required, place.type = .list items required →
    ∃ inside, place.json.member? "items" = some inside
  input : ∀ name required definition fields, place.type = .named name required →
    schema.type? name = some definition → definition.kind = .input fields →
    (place.json.member? "properties" = none ↔ name ∈ place.enclosing) ∧
      (name ∈ place.enclosing → place.json = place.stub definition.description) ∧
      (name ∉ place.enclosing → ∃ members,
        place.json.member? "properties" = some (.obj members) ∧
          members.map Prod.fst = fields.map (·.name))
  /-- What has properties comes from an input object. -/
  properties : ∀ found, place.json.member? "properties" = some found →
    ∃ name required fields, place.type = .named name required ∧
      schema.kind? name = some (.input fields)
  /-- What has items comes from a list. -/
  items : ∀ found, place.json.member? "items" = some found →
    ∃ items required, place.type = .list items required

end GraphQL.Schema

/-! The members of a JSON Schema that lead further down. -/

namespace Parameter

theorem mapNotes_eq_self {parameter : Parameter} {change : Notes → Notes}
    (same : ∀ notes, change notes = notes) : parameter.mapNotes change = parameter := by
  cases parameter <;> simp [mapNotes, same]

theorem lookup_notesToJson_of_ne {notes : Notes} {key : String}
    (noDescription : key ≠ "description")
    (noDefault : key ≠ "default") : (notesToJson notes).lookup key = none := by
  rw [List.lookup_eq_none_iff]
  intro member included
  obtain ⟨own, json⟩ := member
  rcases mem_notesToJson.mp included with ⟨rfl, _⟩ | ⟨rfl, _⟩
  · simpa using noDescription
  · simpa using noDefault

/-- Lists and expanded objects lead further down. -/
def leadsOn : Parameter → Bool
  | .array _ _ => true
  | .object _ _ _ => true
  | _ => false

theorem leadsOn_mapNotes (parameter : Parameter) (change : Notes → Notes) :
    (parameter.mapNotes change).leadsOn = parameter.leadsOn := by
  cases parameter <;> rfl

theorem member?_of_leadsOn {parameter : Parameter} {json : Json} (ok : parameter.toJson = .ok json)
    (flat : parameter.leadsOn = false) :
    json.member? "items" = none ∧ json.member? "properties" = none := by
  cases parameter with
  | scalar kind notes =>
      obtain rfl := Except.ok.inj ok
      simp [Json.member?, typeMember, List.lookup_cons, lookup_notesToJson_of_ne]
  | choice values notes =>
      obtain rfl := Except.ok.inj ok
      simp [Json.member?, typeMember, List.lookup_cons, lookup_notesToJson_of_ne]
  | unexpanded notes =>
      obtain rfl := Except.ok.inj ok
      simp [Json.member?, typeMember, List.lookup_cons, lookup_notesToJson_of_ne]
  | array items notes => contradiction
  | object properties required notes => contradiction
  | undefined enum => simp [toJson] at ok

theorem member?_array {items : Parameter} {notes : Notes} {json : Json}
    (ok : (array items notes).toJson = .ok json) :
    ∃ inside, items.toJson = .ok inside ∧ json.member? "items" = some inside ∧
      json.member? "properties" = none := by
  simp only [toJson, Except.bind_eq_ok_iff] at ok
  obtain ⟨inside, itemsOk, collected⟩ := ok
  obtain rfl := Except.ok.inj collected
  refine ⟨inside, itemsOk, rfl, ?_⟩
  simp [Json.member?, typeMember, List.lookup_cons, lookup_notesToJson_of_ne]

/-- The properties in their order, each with its own JSON Schema. -/
theorem forall₂_propertiesToJson {properties : List (String × Parameter)}
    {members : List (String × Json)} (ok : propertiesToJson properties = .ok members) :
    List.Forall₂ (fun property member =>
      property.1 = member.1 ∧ property.2.toJson = .ok member.2) properties members := by
  induction properties generalizing members with
  | nil =>
      obtain rfl := Except.ok.inj ok
      exact .nil
  | cons property rest inductionHypothesis =>
      simp only [propertiesToJson, Except.bind_eq_ok_iff] at ok
      obtain ⟨schema, firstOk, others, restOk, collected⟩ := ok
      obtain rfl := Except.ok.inj collected
      exact .cons ⟨rfl, firstOk⟩ (inductionHypothesis restOk)

/-- An object of declared values has the JSON Schema of each of them as a property. -/
theorem member?_objectOf {ofType : GraphQL.TypeRef → Parameter} {values : List GraphQL.InputValue}
    {notes : Notes} {json : Json} (ok : (objectOf ofType values notes).toJson = .ok json) :
    ∃ members, json.member? "properties" = some (.obj members) ∧
      json.member? "items" = none ∧
      List.Forall₂ (fun value member => value.name = member.1 ∧
        ((ofType value.type).mapNotes (.attach value)).toJson = .ok member.2) values members ∧
      ((values.map (·.name)).Nodup → ∀ value ∈ values, ∃ inside,
        members.lookup value.name = some inside ∧
          ((ofType value.type).mapNotes (.attach value)).toJson = .ok inside) := by
  simp only [objectOf, toJson, Except.bind_eq_ok_iff] at ok
  obtain ⟨members, propertiesOk, collected⟩ := ok
  obtain rfl := Except.ok.inj collected
  refine ⟨members, rfl, ?_, ?_, ?_⟩
  · simp [Json.member?, typeMember, List.lookup_cons, List.lookup_append, lookup_requiredMember,
      lookup_notesToJson_of_ne]
  · exact List.forall₂_map_left_iff.mp (forall₂_propertiesToJson propertiesOk)
  · intro distinct value member
    have declared := lookup_declared
      (fun value => (ofType value.type).mapNotes (.attach value)) distinct member
    obtain ⟨inside, insideOk, found⟩ := lookup_propertiesToJson propertiesOk declared
    exact ⟨inside, found, insideOk⟩

end Parameter

/-- Without a declaration the notes on the type stay as they are. -/
theorem Occurrence.mapNotes_annotate_none {enclosing : List String} {type : GraphQL.TypeRef}
    {json : Json} (parameter : Parameter) :
    parameter.mapNotes (annotate ⟨enclosing, none, type, json⟩) = parameter :=
  Parameter.mapNotes_eq_self fun _ => rfl

/-- What stands in place of an object says that an object is expected, with the notes there are. -/
theorem Occurrence.stub_eq (place : Occurrence) (ofType : Option String) :
    place.stub ofType =
      .obj (Parameter.typeMember "object" ::
        Parameter.notesToJson (place.annotate (.describedBy ofType))) := by
  obtain ⟨_, declared, _, _⟩ := place
  cases declared with
  | none => rfl
  | some value =>
      simp [stub, description, default, annotate, Parameter.typeMember, Parameter.notesToJson,
        Notes.attach, Notes.describedBy]

namespace GraphQL.Schema

variable {schema : Schema}

/-! What one step keeps. -/

/-- The JSON Schema at a place is made for its type, while the enclosing input objects are being
expanded. -/
structure IsMade (schema : Schema) (place : Occurrence) : Prop where
  distinct : place.enclosing.Nodup
  known : place.enclosing ⊆ schema.types.map (·.name)
  json : ((schema.parameterWithin place.enclosing place.type).mapNotes place.annotate).toJson =
    .ok place.json

theorem parameterWithin_input {expanding : List String} {name : String} {required : Bool}
    {definition : TypeDefinition} {fields : List InputValue}
    (found : schema.type? name = some definition) (input : definition.kind = .input fields) :
    schema.parameterWithin expanding (.named name required) =
      if name ∈ expanding then .unexpanded (.describedBy definition.description)
      else
        .objectOf (schema.parameterWithin (name :: expanding)) fields
          (.describedBy definition.description) := by
  obtain ⟨named, description, kind⟩ := definition
  obtain rfl : kind = .input fields := input
  rw [parameterWithin_named, found]

theorem mapNotes_objectOf {ofType : TypeRef → Parameter} {values : List InputValue} {notes : Notes}
    {change : Notes → Notes} :
    (Parameter.objectOf ofType values notes).mapNotes change =
      .objectOf ofType values (change notes) :=
  rfl

theorem IsMade.step (once : schema.DeclaresOnce) {place next : Occurrence}
    (made : schema.IsMade place) (step : schema.StepsTo place next) : schema.IsMade next := by
  have ok := made.json
  cases step with
  | items found =>
      rw [parameterWithin] at ok
      obtain ⟨inside, insideOk, held, _⟩ := Parameter.member?_array ok
      obtain rfl := Option.some.inj (held.symm.trans found)
      refine ⟨made.distinct, made.known, ?_⟩
      exact (congrArg Parameter.toJson (Occurrence.mapNotes_annotate_none _)).trans insideOk
  | @property enclosing declared name required json inside fields field members input member
      expanded found =>
      obtain ⟨definition, typed, kind⟩ := Option.map_eq_some_iff.mp input
      simp only [parameterWithin_input typed kind] at ok
      by_cases again : name ∈ enclosing
      · rw [if_pos again] at ok
        rw [(Parameter.member?_of_leadsOn ok rfl).2] at expanded
        contradiction
      · rw [if_neg again, mapNotes_objectOf] at ok
        have declaredOnce : (fields.map (·.name)).Nodup := by
          have names := once definition (List.mem_of_find?_eq_some typed)
          rwa [kind] at names
        obtain ⟨others, held, _, _, each⟩ := Parameter.member?_objectOf ok
        rw [expanded, Option.some.injEq, Json.obj.injEq] at held
        subst held
        obtain ⟨own, ownFound, ownOk⟩ := each declaredOnce field member
        obtain rfl := Option.some.inj (found.symm.trans ownFound)
        refine ⟨List.nodup_cons.mpr ⟨again, made.distinct⟩, ?_, ownOk⟩
        apply List.cons_subset.mpr ⟨List.mem_map.mpr ⟨definition, ?_, ?_⟩, made.known⟩
        · exact List.mem_of_find?_eq_some typed
        · simpa using List.find?_some typed

/-- What a way keeps, from its start to any place on it. -/
theorem IsMade.way (once : schema.DeclaresOnce) {start place : Occurrence}
    (made : schema.IsMade start) (way : Relation.ReflTransGen schema.StepsTo start place) :
    schema.IsMade place := by
  induction way with
  | refl => exact made
  | tail _ step inductionHypothesis => exact inductionHypothesis.step once step

theorem leadsOn_of_no_input {expanding : List String} {name : String} {required : Bool}
    (noInput : ∀ fields, schema.kind? name ≠ some (.input fields)) :
    (schema.parameterWithin expanding (.named name required)).leadsOn = false := by
  generalize made : schema.parameterWithin expanding (.named name required) = parameter
  have maps := parameterOf_parameterWithin schema expanding (.named name required)
  rw [made] at maps
  cases maps with
  | choice => rfl
  | undefined => rfl
  | unexpanded => rfl
  | object _ type => exact absurd (kind?_of_type? type) (noInput _)
  | scalar =>
      unfold Parameter.ofScalar
      split
      · rfl
      · rfl
  | text => rfl

section

variable {enclosing : List String} {declared : Option InputValue} {json : Json}

theorem IsMade.members_list {items : TypeRef} {required : Bool}
    (made : schema.IsMade ⟨enclosing, declared, .list items required, json⟩) :
    ∃ inside, json.member? "items" = some inside ∧ json.member? "properties" = none := by
  have ok := made.json
  simp only [parameterWithin] at ok
  obtain ⟨inside, _, held, noProperties⟩ := Parameter.member?_array ok
  exact ⟨inside, held, noProperties⟩

variable {name : String} {required : Bool}
  (made : schema.IsMade ⟨enclosing, declared, .named name required, json⟩)

include made

theorem IsMade.members_of_no_input (noInput : ∀ fields, schema.kind? name ≠ some (.input fields)) :
    json.member? "items" = none ∧ json.member? "properties" = none := by
  apply Parameter.member?_of_leadsOn made.json
  rw [Parameter.leadsOn_mapNotes]
  exact leadsOn_of_no_input noInput

section

variable {definition : TypeDefinition} {fields : List InputValue}
  (typed : schema.type? name = some definition) (kind : definition.kind = .input fields)

include typed kind

/-- Where the way goes through an input object already, nothing leads further down. -/
theorem IsMade.members_of_mem (again : name ∈ enclosing) :
    json = Occurrence.stub ⟨enclosing, declared, .named name required, json⟩
        definition.description ∧
      json.member? "items" = none ∧ json.member? "properties" = none := by
  have ok := made.json
  simp only [parameterWithin_input typed kind, if_pos again] at ok
  refine ⟨?_, Parameter.member?_of_leadsOn ok rfl⟩
  rw [Occurrence.stub_eq]
  exact (Except.ok.inj ok).symm

/-- Where the way has not gone through an input object, all fields of it are properties. -/
theorem IsMade.members_of_notMem (fresh : name ∉ enclosing) :
    ∃ members, json.member? "properties" = some (.obj members) ∧
      members.map Prod.fst = fields.map (·.name) ∧ json.member? "items" = none := by
  have ok := made.json
  simp only [parameterWithin_input typed kind, if_neg fresh, mapNotes_objectOf] at ok
  obtain ⟨members, held, noItems, each, _⟩ := Parameter.member?_objectOf ok
  refine ⟨members, held, ?_, noItems⟩
  rw [eq_comm, ← List.forall₂_eq_eq_eq, List.forall₂_map_left_iff, List.forall₂_map_right_iff]
  exact each.imp fun _ _ own => own.1

end

theorem IsMade.member?_items_named : json.member? "items" = none := by
  by_cases input : ∃ fields, schema.kind? name = some (.input fields)
  · obtain ⟨fields, input⟩ := input
    obtain ⟨definition, typed, kind⟩ := Option.map_eq_some_iff.mp input
    by_cases again : name ∈ enclosing
    · exact (made.members_of_mem typed kind again).2.1
    · obtain ⟨_, _, _, noItems⟩ := made.members_of_notMem typed kind again
      exact noItems
  · exact (made.members_of_no_input (not_exists.mp input)).1

end

theorem IsMade.isCutAtReentry {place : Occurrence} (made : schema.IsMade place) :
    schema.IsCutAtReentry place where
  distinct := made.distinct
  bounded := by simpa using (made.distinct.subperm made.known).length_le
  list := by
    obtain ⟨enclosing, declared, type, json⟩ := place
    rintro items required rfl
    obtain ⟨inside, held, _⟩ := made.members_list
    exact ⟨inside, held⟩
  input := by
    obtain ⟨enclosing, declared, type, json⟩ := place
    rintro name required definition fields rfl typed kind
    by_cases again : name ∈ enclosing
    · obtain ⟨stub, _, noProperties⟩ := made.members_of_mem typed kind again
      exact ⟨iff_of_true noProperties again, fun _ => stub, fun fresh => absurd again fresh⟩
    · obtain ⟨members, held, keys, _⟩ := made.members_of_notMem typed kind again
      have expanded : json.member? "properties" ≠ none := by simp [held]
      exact ⟨iff_of_false expanded again, fun member => absurd member again,
        fun _ => ⟨members, held, keys⟩⟩
  properties := by
    obtain ⟨enclosing, declared, type, json⟩ := place
    intro found held
    cases type with
    | list items required =>
        obtain ⟨_, _, noProperties⟩ := made.members_list
        rw [noProperties] at held
        contradiction
    | named name required =>
        by_cases input : ∃ fields, schema.kind? name = some (.input fields)
        · obtain ⟨fields, input⟩ := input
          exact ⟨name, required, fields, rfl, input⟩
        · rw [(made.members_of_no_input (not_exists.mp input)).2] at held
          contradiction
  items := by
    obtain ⟨enclosing, declared, type, json⟩ := place
    intro found held
    cases type with
    | list items required => exact ⟨items, required, rfl⟩
    | named name required =>
        rw [made.member?_items_named] at held
        contradiction

theorem isMade_root {type : TypeRef} {json : Json}
    (ok : (schema.parameter type).toJson = .ok json) :
    schema.IsMade ⟨[], none, type, json⟩ :=
  ⟨List.nodup_nil, List.nil_subset _,
    (congrArg Parameter.toJson (Occurrence.mapNotes_annotate_none _)).trans ok⟩

/-- JSON Schemas of input types and of arguments are finite, however input objects hold each other:
an object is left without properties exactly where the way from the root goes through it already,
and is then described and has its default as it would have otherwise. There is a JSON Schema unless
an enum without usable values lies behind. -/
theorem cut_at_reentry {source : String} (accepted : ofSource source = .ok schema) :
    (∀ type,
      ((∃ json, (schema.parameter type).toJson = .ok json) ↔ schema.AvoidsUnusableEnums type) ∧
        ∀ json, (schema.parameter type).toJson = .ok json →
          ∀ place, Relation.ReflTransGen schema.StepsTo ⟨[], none, type, json⟩ place →
            schema.IsCutAtReentry place) ∧
      ∀ arguments,
        ((∃ json, (schema.parameters arguments).toJson = .ok json) ↔
            ∀ argument ∈ arguments, schema.AvoidsUnusableEnums argument.type) ∧
          ∀ json, (schema.parameters arguments).toJson = .ok json →
            ∃ members, json.member? "properties" = some (.obj members) ∧
              List.Forall₂ (fun argument member => argument.name = member.1 ∧
                ∀ place, Relation.ReflTransGen schema.StepsTo
                    ⟨[], some argument, argument.type, member.2⟩ place →
                  schema.IsCutAtReentry place) arguments members := by
  have once := declaresOnce_ofSource accepted
  refine ⟨fun type => ⟨isDefined_parameter_iff, fun json ok place way => ?_⟩, fun arguments =>
    ⟨isDefined_parameters_iff, fun json ok => ?_⟩⟩
  · exact ((isMade_root ok).way once way).isCutAtReentry
  · obtain ⟨members, held, _, each, _⟩ := Parameter.member?_objectOf ok
    refine ⟨members, held, each.imp ?_⟩
    rintro argument ⟨name, inside⟩ ⟨named, insideOk⟩
    have made : schema.IsMade ⟨[], some argument, argument.type, inside⟩ :=
      ⟨List.nodup_nil, List.nil_subset _, insideOk⟩
    exact ⟨named, fun place way => (made.way once way).isCutAtReentry⟩

/-- Below two fields of one type the other type is expanded each time, and cut below itself. -/
theorem cut_at_reentry_sample :
    ∃ schema json below beside,
      Schema.ofSource
          ("input D { left: E right: [E!] } type Query { f(x: D): Int } " ++
            r#"input E { d: D "Again." e: E = {} }"#) = .ok schema ∧
        (schema.parameter (.named "D" true)).toJson = .ok json ∧
        Relation.ReflTransGen schema.StepsTo ⟨[], none, .named "D" true, json⟩ below ∧
        below.type = .named "E" false ∧ below.enclosing = ["E", "D"] ∧
        below.json = .obj
          [("type", .str "object"), ("description", .str "Again."), ("default", .obj [])] ∧
        Relation.ReflTransGen schema.StepsTo ⟨[], none, .named "D" true, json⟩ beside ∧
        beside.type = .named "E" true ∧ beside.enclosing = ["D"] ∧
        ∃ members, beside.json.member? "properties" = some (.obj members) ∧
          members.map Prod.fst = ["d", "e"] := by
  let left : InputValue := ⟨"left", none, .named "E" false, none⟩
  let right : InputValue := ⟨"right", none, .list (.named "E" true) false, none⟩
  let d : InputValue := ⟨"d", none, .named "D" false, none⟩
  let e : InputValue := ⟨"e", some "Again.", .named "E" false, some (.obj [])⟩
  obtain ⟨schema, accepted, checked⟩ := Except.exists_eq_ok_of_any
    (Schema.ofSource
      ("input D { left: E right: [E!] } type Query { f(x: D): Int } " ++
        r#"input E { d: D "Again." e: E = {} }"#))
    (fun schema =>
      schema.types.all (fun type => !type.kind.isUnusable) &&
        schema.type? "D" = some ⟨"D", none, .input [left, right]⟩ &&
        schema.type? "E" = some ⟨"E", none, .input [d, e]⟩)
    (by decide +kernel)
  simp only [Bool.and_eq_true, decide_eq_true_eq] at checked
  obtain ⟨⟨usable, outer⟩, inner⟩ := checked
  have usable : ∀ type ∈ schema.types, type.kind.isUnusable = false := by simpa using usable
  have outerKind : schema.kind? "D" = some (.input [left, right]) := by rw [kind?, outer]; rfl
  have innerKind : schema.kind? "E" = some (.input [d, e]) := by rw [kind?, inner]; rfl
  obtain ⟨defined, cut⟩ := (cut_at_reentry accepted).1 (.named "D" true)
  obtain ⟨json, ok⟩ := defined.mpr (avoidsUnusableEnums_of_types usable _)
  -- The root has both fields of its type as properties.
  obtain ⟨members, held, keys⟩ :=
    ((cut json ok _ .refl).input "D" true _ _ rfl outer rfl).2.2 List.not_mem_nil
  obtain ⟨⟨_, leftJson⟩, _, rfl, rfl, rest⟩ := List.map_eq_cons_iff.mp keys
  obtain ⟨⟨_, rightJson⟩, rfl, rfl⟩ := List.map_eq_singleton_iff.mp rest
  have toLeft : Relation.ReflTransGen schema.StepsTo ⟨[], none, .named "D" true, json⟩
      ⟨["D"], some left, .named "E" false, leftJson⟩ :=
    .single (.property outerKind (by simp) held rfl)
  have toRight : Relation.ReflTransGen schema.StepsTo ⟨[], none, .named "D" true, json⟩
      ⟨["D"], some right, .list (.named "E" true) false, rightJson⟩ :=
    .single (.property outerKind (by simp) held rfl)
  -- On the left the other type is expanded, and its field of its own type is cut.
  obtain ⟨members, leftHeld, keys⟩ :=
    ((cut json ok _ toLeft).input "E" false _ _ rfl inner rfl).2.2 (by simp)
  obtain ⟨⟨_, dJson⟩, _, rfl, rfl, rest⟩ := List.map_eq_cons_iff.mp keys
  obtain ⟨⟨_, eJson⟩, rfl, rfl⟩ := List.map_eq_singleton_iff.mp rest
  have hasItself : e ∈ [d, e] := by simp
  have toBelow := toLeft.tail (.property innerKind hasItself leftHeld rfl)
  have stub := ((cut json ok _ toBelow).input "E" false _ _ rfl inner rfl).2.1 (by simp)
  -- On the right it is expanded anew, below the items of a list.
  obtain ⟨inside, items⟩ := (cut json ok _ toRight).list _ _ rfl
  have toBeside := toRight.tail (.items items)
  obtain ⟨members, besideHeld, keys⟩ :=
    ((cut json ok _ toBeside).input "E" true _ _ rfl inner rfl).2.2 (by simp)
  exact ⟨schema, json, _, _, accepted, ok, toBelow, rfl, rfl, stub, toBeside, rfl, rfl, members,
    besideHeld, keys⟩

/-- An enum whose reason for deprecation is no text takes the JSON Schema of an input object away,
whether the object holds itself or not. -/
theorem reentry_without_schema :
    ∃ schema,
      Schema.ofSource
          ("enum E { A @deprecated(reason: 1) } input I { i: I kind: E } " ++
            "type Query { f(x: I): Int }") = .ok schema ∧
        schema.ReachesItself "I" ∧
        (¬ ∃ json, (schema.parameter (.named "I" false)).toJson = .ok json) ∧
        ∃ field ∈ schema.rootFields .query,
          ¬ ∃ json, (schema.parameters field.arguments).toJson = .ok json := by
  obtain ⟨schema, accepted, shape⟩ := Except.exists_eq_ok_of_any
    (Schema.ofSource
      ("enum E { A @deprecated(reason: 1) } input I { i: I kind: E } " ++
        "type Query { f(x: I): Int }"))
    (fun schema =>
      schema.kind? "I" = some (.input
        [⟨"i", none, .named "I" false, none⟩, ⟨"kind", none, .named "E" false, none⟩]) &&
        schema.kind? "E" = some (.enum none) &&
        schema.rootFields .query =
          [⟨"f", none, [⟨"x", none, .named "I" false, none⟩], .named "Int" false⟩])
    (by decide +kernel)
  simp only [Bool.and_eq_true, decide_eq_true_eq] at shape
  obtain ⟨⟨input, enum⟩, root⟩ := shape
  have itself : schema.Holds "I" "I" := ⟨_, input, _, List.mem_cons_self, rfl⟩
  have holds : schema.Holds "I" "E" :=
    ⟨_, input, _, List.mem_cons_of_mem _ List.mem_cons_self, rfl⟩
  refine ⟨schema, accepted, .single itself, ?_, _, root ▸ List.mem_cons_self, ?_⟩
  · intro defined
    exact isDefined_parameter_iff.mp defined "E" (.single holds) enum
  · intro defined
    exact isDefined_parameters_iff.mp defined _ List.mem_cons_self "E" (.single holds) enum

end GraphQL.Schema

end Toolsmith

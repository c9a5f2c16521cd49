import Toolsmith.Proofs.Parameter.FiniteDefaults
import Toolsmith.Proofs.Parameter.Locality
import Toolsmith.Proofs.Parameter.Occurrence

/-!
JSON Schemas are put together of those of the types inside. Where no cycle is involved, the place of
a field or of an argument shows the JSON Schema that its type has on its own, with the description
and the default that are declared for it. So a type has one JSON Schema wherever it is used, except
below a place where an input object is being expanded that it leads back to.
-/

set_option autoImplicit false

namespace Toolsmith

namespace GraphQL

/-- What a declaration makes of the JSON Schema that its type has on its own. -/
structure InputValue.Annotates (value : InputValue) (own node : Json) : Prop where
  /-- A description that is not empty takes the place of the one of the type. -/
  description : node.member? "description" =
    ((nonemptyDescription value.description).map .str).or (own.member? "description")
  /-- There is a default if one is declared; the type itself has none. -/
  default : node.member? "default" = value.default ∧ own.member? "default" = none
  others : ∀ key, key ≠ "description" → key ≠ "default" → node.member? key = own.member? key
  unchanged : nonemptyDescription value.description = none → value.default = none → node = own

/-- A place shows the JSON Schema that its type has on its own, with what is declared there. -/
def Schema.ShowsOwn (schema : Schema) (place : Occurrence) : Prop :=
  ∃ own, (schema.parameter place.type).toJson = .ok own ∧
    place.declared.elim (place.json = own) fun value => value.Annotates own place.json

end GraphQL

theorem Parameter.annotates_of_toJson {parameter : Parameter} {value : GraphQL.InputValue}
    {own node : Json} (bare : parameter.notes.default = none)
    (ownOk : parameter.toJson = .ok own)
    (ok : (parameter.mapNotes (.attach value)).toJson = .ok node) : value.Annotates own node := by
  have ownNotes := member?_toJson ownOk
  have notes := member?_toJson ok
  rw [notes_mapNotes ⟨own, ownOk⟩] at notes
  constructor
  · rw [notes.1, ownNotes.1, Notes.attach, Option.map_or]
  · rw [notes.2, ownNotes.2, Notes.attach, bare, Option.or_none]
    exact ⟨rfl, rfl⟩
  · intro key noDescription noDefault
    obtain ⟨asserted, _, _, rfl, made⟩ := exists_toJson_mapNotes ownOk
    rw [made, Except.ok.injEq] at ok
    simp only [← ok, Json.member?, List.lookup_append,
      lookup_notesToJson_of_ne noDescription noDefault]
  · intro noDescription noDefault
    have same (notes : Notes) : notes.attach value = notes := by
      rw [Notes.attach, noDescription, noDefault, Option.none_or, Option.none_or]
    rw [mapNotes_eq_self same, ownOk] at ok
    exact (Except.ok.inj ok).symm

namespace GraphQL.Schema

variable {schema : Schema}

/-- Where the type leads to no object that is being expanded, nothing is cut. -/
theorem IsMade.showsOwn {place : Occurrence} (made : schema.IsMade place)
    (apart : ∀ name ∈ place.enclosing, ¬ schema.Reaches place.type.typeName name) :
    schema.ShowsOwn place := by
  obtain ⟨enclosing, declared, type, json⟩ := place
  have ok := made.json
  rw [parameterWithin_eq_parameter fun name member _ _ => apart name member] at ok
  obtain ⟨own, ownOk⟩ := Parameter.isDefined_mapNotes.mp ⟨json, ok⟩
  refine ⟨own, ownOk, ?_⟩
  cases declared with
  | none =>
      rw [Occurrence.mapNotes_annotate_none, ownOk] at ok
      exact (Except.ok.inj ok).symm
  | some value =>
      have bare := default_parameterOf (parameterOf_parameterWithin schema [] type)
      exact Parameter.annotates_of_toJson bare ownOk ok

/-- All objects that a way goes through lead to the type at its end, through the last of them. -/
theorem reaches_of_way {start place : Occurrence} (root : start.enclosing = [])
    (way : Relation.ReflTransGen schema.StepsTo start place) :
    ∀ name ∈ place.enclosing, schema.Reaches name place.type.typeName ∧
      ∃ innermost ∈ place.enclosing.head?, schema.Reaches name innermost := by
  induction way with
  | refl => simp [root]
  | tail _ step inductionHypothesis =>
      cases step with
      | items => exact inductionHypothesis
      | @property enclosing declared name required json inside fields field members input member =>
          have holds : schema.Holds name field.type.typeName := ⟨fields, input, field, member, rfl⟩
          intro other through
          rcases List.mem_cons.mp through with rfl | before
          · exact ⟨.single holds, other, rfl, .refl⟩
          · have reached : schema.Reaches other name := (inductionHypothesis other before).1
            exact ⟨reached.tail holds, name, rfl, reached⟩

/-- It is enough that the innermost object does not lie behind the type at a place. -/
theorem IsMade.showsOwn_of_way (once : schema.DeclaresOnce) {start place : Occurrence}
    (made : schema.IsMade start) (root : start.enclosing = [])
    (way : Relation.ReflTransGen schema.StepsTo start place)
    (apart : ∀ innermost ∈ place.enclosing.head?,
      ¬ schema.Reaches place.type.typeName innermost) : schema.ShowsOwn place := by
  apply (made.way once way).showsOwn
  intro name member reached
  -- Behind an outer object stands the innermost one, so a type that leads to the former leads on.
  obtain ⟨_, innermost, last, further⟩ := reaches_of_way root way name member
  exact apart innermost last (reached.trans further)

theorem exists_lookup_of_keys {fields : List InputValue} {members : List (String × Json)}
    (keys : members.map Prod.fst = fields.map (·.name)) {field : InputValue}
    (member : field ∈ fields) : ∃ node, members.lookup field.name = some node := by
  have key : field.name ∈ members.map Prod.fst := keys ▸ List.mem_map.mpr ⟨field, member, rfl⟩
  obtain ⟨⟨name, json⟩, included, same⟩ := List.mem_map.mp key
  rw [← Option.ne_none_iff_exists', Ne, List.lookup_eq_none_iff]
  intro absent
  have different : field.name ≠ name := by simpa using absent _ included
  exact different same.symm

/-- An input object has a JSON Schema if the types of its fields have one. -/
theorem exists_toJson_input_iff {name : String} {required : Bool} {fields : List InputValue}
    (input : schema.kind? name = some (.input fields)) :
    (∃ json, (schema.parameter (.named name required)).toJson = .ok json) ↔
      ∀ field ∈ fields, ∃ own, (schema.parameter field.type).toJson = .ok own := by
  have defined (type : TypeRef) : (∃ json, (schema.parameter type).toJson = .ok json) ↔
    schema.AvoidsUnusableEnums type := isDefined_parameter_iff
  simp only [defined]
  constructor
  · intro avoids field member target reached
    exact avoids target (.head ⟨fields, input, field, member, rfl⟩ reached)
  · intro avoid target reached
    rcases Relation.ReflTransGen.cases_head reached with same | ⟨held, holds, further⟩
    · rw [← same, TypeRef.typeName, input]
      simp
    · obtain ⟨others, found, field, member, rfl⟩ := holds
      rw [TypeRef.typeName, input, Option.some.injEq, TypeKind.input.injEq] at found
      subst found
      exact avoid field member target further

theorem exists_toJson_parameters_iff {arguments : List InputValue} :
    (∃ json, (schema.parameters arguments).toJson = .ok json) ↔
      ∀ argument ∈ arguments, ∃ own, (schema.parameter argument.type).toJson = .ok own :=
  Parameter.isDefined_objectOf

/-- A type that leads to no input object among those being expanded has the parameter that it has on
its own. So the properties of an input object are the JSON Schemas of the types of its fields, with
what the fields declare, except where a type leads back to the object; the properties of arguments
are such ones without exception; and so is every place further down whose type does not lead back to
the object that the place is a property of. There is a JSON Schema for an object or for arguments
exactly when there is one for each of the types inside. -/
theorem parameter_wherever_used {source : String} (accepted : ofSource source = .ok schema) :
    (∀ expanding type,
      (∀ name ∈ expanding, ∀ fields, schema.kind? name = some (.input fields) →
        ¬ schema.Reaches type.typeName name) →
      schema.parameterWithin expanding type = schema.parameter type) ∧
      (∀ name required fields, schema.kind? name = some (.input fields) →
        ((∃ json, (schema.parameter (.named name required)).toJson = .ok json) ↔
            ∀ field ∈ fields, ∃ own, (schema.parameter field.type).toJson = .ok own) ∧
          ∀ json, (schema.parameter (.named name required)).toJson = .ok json →
            ∃ members, json.member? "properties" = some (.obj members) ∧
              ∀ field ∈ fields, ¬ schema.Reaches field.type.typeName name →
                ∃ own node, (schema.parameter field.type).toJson = .ok own ∧
                  members.lookup field.name = some node ∧ field.Annotates own node) ∧
      (∀ arguments,
        ((∃ json, (schema.parameters arguments).toJson = .ok json) ↔
            ∀ argument ∈ arguments, ∃ own, (schema.parameter argument.type).toJson = .ok own) ∧
          ∀ json, (schema.parameters arguments).toJson = .ok json →
            ∃ members, json.member? "properties" = some (.obj members) ∧
              List.Forall₂ (fun argument member => argument.name = member.1 ∧
                (∃ own, (schema.parameter argument.type).toJson = .ok own ∧
                  argument.Annotates own member.2) ∧
                ∀ place, Relation.ReflTransGen schema.StepsTo
                    ⟨[], some argument, argument.type, member.2⟩ place →
                  (∀ innermost ∈ place.enclosing.head?,
                    ¬ schema.Reaches place.type.typeName innermost) →
                  schema.ShowsOwn place) arguments members) ∧
      ∀ type json, (schema.parameter type).toJson = .ok json →
        ∀ place, Relation.ReflTransGen schema.StepsTo ⟨[], none, type, json⟩ place →
          (∀ innermost ∈ place.enclosing.head?,
            ¬ schema.Reaches place.type.typeName innermost) →
          schema.ShowsOwn place := by
  have once := declaresOnce_ofSource accepted
  refine ⟨fun expanding type => parameterWithin_eq_parameter, ?_, fun arguments =>
    ⟨exists_toJson_parameters_iff, fun json ok => ?_⟩, ?_⟩
  · refine fun name required fields input => ⟨exists_toJson_input_iff input, fun json ok => ?_⟩
    obtain ⟨definition, typed, kind⟩ := Option.map_eq_some_iff.mp input
    obtain ⟨members, held, keys, _⟩ :=
      (isMade_root ok).members_of_notMem typed kind List.not_mem_nil
    refine ⟨members, held, fun field member apart => ?_⟩
    obtain ⟨node, found⟩ := exists_lookup_of_keys keys member
    obtain ⟨own, ownOk, annotates⟩ := (isMade_root ok).showsOwn_of_way once rfl
      (.single (.property input member held found)) (by simpa using apart)
    exact ⟨own, node, ownOk, found, annotates⟩
  · obtain ⟨members, held, _, each, _⟩ := Parameter.member?_objectOf ok
    refine ⟨members, held, each.imp ?_⟩
    rintro argument ⟨name, inside⟩ ⟨named, insideOk⟩
    have made : schema.IsMade ⟨[], some argument, argument.type, inside⟩ :=
      ⟨List.nodup_nil, List.nil_subset _, insideOk⟩
    exact ⟨named, made.showsOwn (List.forall_mem_nil _),
      fun place way => made.showsOwn_of_way once rfl way⟩
  · exact fun type json ok place way => (isMade_root ok).showsOwn_of_way once rfl way

/-- One field leads back to its object and another one to a type that holds itself. -/
theorem parameter_wherever_used_sample :
    ∃ schema json members own node,
      ofSource
          (r#"input A { a: A "Mine." b: B = { n: 1 } } "# ++
            "\"Theirs.\" input B { b: [B!] n: Int } type Query { f(x: A): Int }") = .ok schema ∧
        schema.parameterWithin ["A"] (.named "B" false) = schema.parameter (.named "B" false) ∧
        (schema.parameter (.named "A" false)).toJson = .ok json ∧
        json.member? "properties" = some (.obj members) ∧
        members.lookup "b" = some node ∧
        (schema.parameter (.named "B" false)).toJson = .ok own ∧
        node.member? "description" = some (.str "Mine.") ∧
        node.member? "default" = some (.obj [("n", .int 1)]) ∧
        node.member? "properties" = own.member? "properties" := by
  let a : InputValue := ⟨"a", none, .named "A" false, none⟩
  let b : InputValue := ⟨"b", some "Mine.", .named "B" false, some (.obj [("n", .int 1)])⟩
  obtain ⟨schema, accepted, checked⟩ := Except.exists_eq_ok_of_any
    (ofSource
      (r#"input A { a: A "Mine." b: B = { n: 1 } } "# ++
        "\"Theirs.\" input B { b: [B!] n: Int } type Query { f(x: A): Int }"))
    (fun schema =>
      schema.types.all (fun type => !type.kind.isUnusable) &&
        schema.kind? "A" = some (.input [a, b]) &&
        decide (schema.ClosesOver ["B", "Int"]))
    (by decide +kernel)
  simp only [Bool.and_eq_true, decide_eq_true_eq] at checked
  obtain ⟨⟨usable, input⟩, closes⟩ := checked
  have usable : ∀ type ∈ schema.types, type.kind.isUnusable = false := by simpa using usable
  have apart : ¬ schema.Reaches "B" "A" := by
    intro reaches
    have member := closes.mem_of_dependsOn List.mem_cons_self (dependsOn_of_reaches reaches)
    exact absurd member (by decide)
  obtain ⟨alone, objects, _⟩ := parameter_wherever_used accepted
  obtain ⟨_, uses⟩ := objects "A" false [a, b] input
  obtain ⟨json, ok⟩ := isDefined_parameter_iff.mpr
    (avoidsUnusableEnums_of_types usable (.named "A" false))
  obtain ⟨members, held, each⟩ := uses json ok
  obtain ⟨own, node, ownOk, found, annotates⟩ :=
    each b (List.mem_cons_of_mem a List.mem_cons_self) apart
  refine ⟨schema, json, members, own, node, accepted, ?_, ok, held, found, ownOk,
    annotates.description, annotates.default.1,
    annotates.others "properties" (by decide) (by decide)⟩
  exact alone ["A"] (.named "B" false) (List.forall_mem_singleton.mpr fun _ _ => apart)

end GraphQL.Schema

end Toolsmith

import Toolsmith.Proofs.Parameter.Definedness

/-!
The notes on a parameter in its JSON Schema. Whatever kind the parameter is of, its description and
its default are members of their own, and a property has those that its declaration gives it.
-/

set_option autoImplicit false

namespace Toolsmith

namespace Parameter

/-- The notes on a parameter; there are none on what has no JSON Schema. -/
def notes : Parameter → Notes
  | .scalar _ notes => notes
  | .choice _ notes => notes
  | .array _ notes => notes
  | .object _ _ notes => notes
  | .unexpanded notes => notes
  | .undefined _ => {}

theorem notes_mapNotes {parameter : Parameter} (defined : parameter.IsDefined)
    (change : Notes → Notes) : (parameter.mapNotes change).notes = change parameter.notes := by
  cases parameter with
  | undefined enum =>
      obtain ⟨_, ok⟩ := defined
      simp [toJson] at ok
  | _ => rfl

theorem lookup_notesToJson (notes : Notes) :
    (notesToJson notes).lookup "description" = notes.description.map .str ∧
      (notesToJson notes).lookup "default" = notes.default := by
  obtain ⟨description, default⟩ := notes
  cases description <;> cases default <;> simp [notesToJson, List.lookup_cons]

theorem lookup_requiredMember (names : List String) {key : String} (other : key ≠ "required") :
    (requiredMember names).lookup key = none := by
  unfold requiredMember
  split
  · rfl
  · have different : (key == "required") = false := by simpa using other
    simp [List.lookup_cons, different]

/-- The notes stand behind all else in the JSON Schema, and a change of them is one there alone. -/
theorem exists_toJson_mapNotes {parameter : Parameter} {json : Json}
    (ok : parameter.toJson = .ok json) :
    ∃ asserted, asserted.lookup "description" = none ∧ asserted.lookup "default" = none ∧
      json = .obj (asserted ++ notesToJson parameter.notes) ∧
      ∀ change, (parameter.mapNotes change).toJson =
        .ok (.obj (asserted ++ notesToJson (change parameter.notes))) := by
  cases parameter with
  | scalar kind notes =>
      obtain rfl := Except.ok.inj ok
      exact ⟨[typeMember kind.text], rfl, rfl, rfl, fun _ => rfl⟩
  | choice values notes =>
      obtain rfl := Except.ok.inj ok
      exact ⟨[typeMember "string", ("enum", .arr (values.map .str))], rfl, rfl, rfl, fun _ => rfl⟩
  | array items notes =>
      simp only [toJson, Except.bind_eq_ok_iff] at ok
      obtain ⟨itemSchema, itemsOk, collected⟩ := ok
      obtain rfl := Except.ok.inj collected
      refine ⟨[typeMember "array", ("items", itemSchema)], rfl, rfl, rfl, fun change => ?_⟩
      rw [mapNotes, toJson, itemsOk]
      rfl
  | object properties required notes =>
      simp only [toJson, Except.bind_eq_ok_iff] at ok
      obtain ⟨members, propertiesOk, collected⟩ := ok
      obtain rfl := Except.ok.inj collected
      refine ⟨typeMember "object" :: ("properties", .obj members) :: requiredMember required,
        ?_, ?_, rfl, fun change => ?_⟩
      · exact lookup_requiredMember required (by decide)
      · exact lookup_requiredMember required (by decide)
      · rw [mapNotes, toJson, propertiesOk]
        rfl
  | unexpanded notes =>
      obtain rfl := Except.ok.inj ok
      exact ⟨[typeMember "object"], rfl, rfl, rfl, fun _ => rfl⟩
  | undefined enum => simp [toJson] at ok

/-- The notes are found in the JSON Schema, and none that are not there. -/
theorem member?_toJson {parameter : Parameter} {json : Json} (ok : parameter.toJson = .ok json) :
    json.member? "description" = parameter.notes.description.map .str ∧
      json.member? "default" = parameter.notes.default := by
  obtain ⟨asserted, noDescription, noDefault, rfl, _⟩ := exists_toJson_mapNotes ok
  simp only [Json.member?, List.lookup_append, noDescription, noDefault, Option.none_or]
  exact lookup_notesToJson parameter.notes

/-- Each property has its own JSON Schema under its name. -/
theorem lookup_propertiesToJson {properties : List (String × Parameter)}
    {members : List (String × Json)} (ok : propertiesToJson properties = .ok members)
    {name : String} {parameter : Parameter} (found : properties.lookup name = some parameter) :
    ∃ json, parameter.toJson = .ok json ∧ members.lookup name = some json := by
  induction properties generalizing members with
  | nil => contradiction
  | cons property rest inductionHypothesis =>
      obtain ⟨first, firstParameter⟩ := property
      simp only [propertiesToJson, Except.bind_eq_ok_iff] at ok
      obtain ⟨schema, firstOk, others, restOk, collected⟩ := ok
      obtain rfl := Except.ok.inj collected
      by_cases same : name = first
      · subst same
        simp only [List.lookup_cons_self, Option.some.injEq] at found ⊢
        subst found
        exact ⟨schema, firstOk, rfl⟩
      · have different : (name == first) = false := by simpa using same
        simp only [List.lookup_cons, different] at found ⊢
        exact inductionHypothesis restOk found

/-- Among declarations of distinct names each is found under its name. -/
theorem lookup_declared {α : Type} (made : GraphQL.InputValue → α)
    {values : List GraphQL.InputValue} (distinct : (values.map (·.name)).Nodup)
    {value : GraphQL.InputValue} (member : value ∈ values) :
    (values.map fun declared => (declared.name, made declared)).lookup value.name =
      some (made value) := by
  induction values with
  | nil => contradiction
  | cons first rest inductionHypothesis =>
      obtain ⟨fresh, others⟩ := List.nodup_cons.mp distinct
      rcases List.mem_cons.mp member with rfl | later
      · exact List.lookup_cons_self
      · have different : (value.name == first.name) = false := by
          rw [beq_eq_false_iff_ne]
          intro same
          exact fresh (List.mem_map.mpr ⟨value, later, same⟩)
        rw [List.map_cons, List.lookup_cons, different]
        exact inductionHypothesis others later

/-- Declarations of distinct names have a property each, with the notes that the declaration makes
to those on its type. -/
theorem property_of_objectOf {ofType : GraphQL.TypeRef → Parameter}
    {values : List GraphQL.InputValue} {notes : Notes} {json : Json}
    (ok : (objectOf ofType values notes).toJson = .ok json)
    (distinct : (values.map (·.name)).Nodup) {value : GraphQL.InputValue}
    (member : value ∈ values) :
    ∃ members property, json.member? "properties" = some (.obj members) ∧
      members.lookup value.name = some property ∧
      property.member? "description" =
        (Notes.attach value (ofType value.type).notes).description.map .str ∧
      property.member? "default" = (Notes.attach value (ofType value.type).notes).default := by
  have defined := isDefined_objectOf.mp ⟨json, ok⟩ value member
  simp only [objectOf, toJson, Except.bind_eq_ok_iff] at ok
  obtain ⟨members, propertiesOk, collected⟩ := ok
  obtain rfl := Except.ok.inj collected
  have declared := lookup_declared
    (fun value => (ofType value.type).mapNotes (.attach value)) distinct member
  obtain ⟨property, propertyOk, found⟩ := lookup_propertiesToJson propertiesOk declared
  have noted := member?_toJson propertyOk
  rw [notes_mapNotes defined] at noted
  exact ⟨members, property, rfl, found, noted⟩

end Parameter

end Toolsmith

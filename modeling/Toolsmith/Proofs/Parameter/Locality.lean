import Toolsmith.Proofs.GraphQL.Schema.Declarations
import Toolsmith.Proofs.Parameter.Definedness

/-!
What a parameter depends on: the types that its type leads to through the fields of input objects,
and which of the input objects among them are being expanded already. Neither other types nor other
objects that are being expanded have a say in it.
-/

set_option autoImplicit false

namespace Toolsmith

/-- The parameter of an object depends on what the types of its values are mapped to. -/
theorem Parameter.objectOf_congr {first second : GraphQL.TypeRef → Parameter}
    {values : List GraphQL.InputValue} (notes : Notes)
    (same : ∀ value ∈ values, first value.type = second value.type) :
    objectOf first values notes = objectOf second values notes := by
  have properties : (values.map fun value =>
        (value.name, (first value.type).mapNotes (.attach value))) =
      values.map fun value => (value.name, (second value.type).mapNotes (.attach value)) := by
    apply List.map_congr_left
    intro value member
    rw [same value member]
  rw [objectOf, properties, objectOf]

namespace GraphQL.Schema

variable {first second schema : Schema}

theorem Holds.refers {holder held : String} (holds : schema.Holds holder held) :
    schema.Refers holder held := by
  obtain ⟨fields, found, field, member, rfl⟩ := holds
  exact ⟨_, found, List.mem_map.mpr ⟨field, member, rfl⟩⟩

theorem dependsOn_of_reaches {source target : String} (reaches : schema.Reaches source target) :
    schema.DependsOn source target :=
  Relation.ReflTransGen.mono (fun _ _ => Holds.refers) _ _ reaches

/-- Both schemas define a type alike, or neither defines it. -/
abbrev AgreesAt (first second : Schema) (name : String) : Prop :=
  first.type? name = second.type? name

theorem AgreesAt.kind? {name : String} (agree : first.AgreesAt second name) :
    first.kind? name = second.kind? name := by
  rw [Schema.kind?, Schema.kind?, agree]

/-- The same input objects that a type leads to are being expanded. -/
abbrev ClosesAlike (schema : Schema) (type : TypeRef) (expanding other : List String) : Prop :=
  ∀ name fields, schema.Reaches type.typeName name → schema.kind? name = some (.input fields) →
    (name ∈ expanding ↔ name ∈ other)

/-- An object that is entered is closed on all ways below it. -/
theorem ClosesAlike.enter {expanding other : List String} {name : String} {required : Bool}
    (alike : schema.ClosesAlike (.named name required) expanding other) {fields : List InputValue}
    (input : schema.kind? name = some (.input fields)) {field : InputValue}
    (member : field ∈ fields) :
    schema.ClosesAlike field.type (name :: expanding) (name :: other) := by
  intro target below reached kind
  have holds : schema.Holds name field.type.typeName := ⟨fields, input, field, member, rfl⟩
  rw [List.mem_cons, List.mem_cons, alike target below (.head holds reached) kind]

theorem type?_of_agree {name : String} {required : Bool} {definition : TypeDefinition}
    (agree : ∀ other, first.Reaches (TypeRef.named name required).typeName other →
      first.AgreesAt second other)
    (found : first.type? name = some definition) : second.type? name = some definition :=
  (agree name .refl).symm.trans found

theorem parameterWithin_eq_text (expanding : List String) {name : String} (required : Bool)
    (noInput : ∀ kind, schema.kind? name = some kind → kind.takesValues = false) :
    schema.parameterWithin expanding (.named name required) = .scalar .string {} := by
  rw [parameterWithin_named]
  split
  · exact Bool.noConfusion (noInput _ (kind?_of_type? ‹_›))
  · exact Bool.noConfusion (noInput _ (kind?_of_type? ‹_›))
  · exact Bool.noConfusion (noInput _ (kind?_of_type? ‹_›))
  · exact Bool.noConfusion (noInput _ (kind?_of_type? ‹_›))
  · rfl

/-- The expansions in both schemas go the same way: an object is entered in the one exactly when it
is entered in the other. -/
theorem parameterWithin_of_parameterOf {expanding other : List String} {type : TypeRef}
    {parameter : Parameter} (maps : first.ParameterOf expanding type parameter)
    (agree : ∀ name, first.Reaches type.typeName name → first.AgreesAt second name)
    (alike : first.ClosesAlike type expanding other) :
    second.parameterWithin other type = parameter := by
  induction maps generalizing other with
  | list _ _ inductionHypothesis => rw [parameterWithin, inductionHypothesis agree alike]
  | choice _ found => rw [parameterWithin_named, type?_of_agree agree found]
  | undefined _ found => rw [parameterWithin_named, type?_of_agree agree found]
  | scalar _ found => rw [parameterWithin_named, type?_of_agree agree found]
  | unexpanded _ found again =>
      rw [parameterWithin_named, type?_of_agree agree found]
      exact if_pos ((alike _ _ .refl (kind?_of_type? found)).mp again)
  | @object expanding name declared description fields _ found fresh _ inductionHypothesis =>
      have input := kind?_of_type? found
      rw [parameterWithin_named, type?_of_agree agree found]
      refine (if_neg ((alike _ _ .refl input).not.mp fresh)).trans ?_
      refine Parameter.objectOf_congr _ fun field member => ?_
      apply inductionHypothesis
      · intro target reached
        have holds : first.Holds name field.type.typeName := ⟨fields, input, field, member, rfl⟩
        exact agree target (.head holds reached)
      · exact alike.enter input member
  | @text _ name required noInput =>
      apply parameterWithin_eq_text
      rwa [← (agree name .refl).kind?]

theorem parameter_eq_of_agree {type : TypeRef}
    (agree : ∀ name, first.Reaches type.typeName name → first.AgreesAt second name) :
    first.parameter type = second.parameter type :=
  (parameterWithin_of_parameterOf (parameterOf_parameterWithin first [] type) agree
    fun _ _ _ _ => Iff.rfl).symm

theorem parameters_eq_of_agree {arguments : List InputValue}
    (agree : ∀ argument ∈ arguments, ∀ name,
      first.Reaches argument.type.typeName name → first.AgreesAt second name) :
    first.parameters arguments = second.parameters arguments :=
  Parameter.objectOf_congr _ fun argument member => parameter_eq_of_agree (agree argument member)

theorem parameterWithin_congr {expanding other : List String} {type : TypeRef}
    (alike : schema.ClosesAlike type expanding other) :
    schema.parameterWithin other type = schema.parameterWithin expanding type :=
  parameterWithin_of_parameterOf (parameterOf_parameterWithin schema expanding type)
    (fun _ _ => rfl) alike

/-- Where no input object that is being expanded lies behind a type, its parameter is the one that
it has on its own. -/
theorem parameterWithin_eq_parameter {expanding : List String} {type : TypeRef}
    (apart : ∀ name ∈ expanding, ∀ fields, schema.kind? name = some (.input fields) →
      ¬ schema.Reaches type.typeName name) :
    schema.parameterWithin expanding type = schema.parameter type := by
  apply parameterWithin_congr
  intro name fields reached input
  apply iff_of_false List.not_mem_nil
  intro member
  exact apart name member fields input reached

end GraphQL.Schema

end Toolsmith

import Mathlib.Logic.Relation
import Toolsmith.Parameter
import Toolsmith.Proofs.Outcome

/-!
What the expansion of input objects comes to. A parameter goes through the fields of input objects
and never into an object twice on one way; it comes to every type that fields lead to all the same,
since what lies behind a second visit also lies behind the first one. So a parameter has a JSON
Schema exactly when no enum without usable values lies behind its type.
-/

set_option autoImplicit false

namespace Toolsmith

/-- A kind of type that takes values, so that its parameter goes by the kind. -/
def GraphQL.TypeKind.takesValues : GraphQL.TypeKind → Bool
  | .scalar => true
  | .enum _ => true
  | .input _ => true
  | _ => false

namespace GraphQL.Schema

variable {schema : Schema}

/-- An input object has a field of a type, inside lists or not. -/
def Holds (schema : Schema) (holder held : String) : Prop :=
  ∃ fields, schema.kind? holder = some (.input fields) ∧
    ∃ field ∈ fields, field.type.typeName = held

/-- Fields of input objects lead from one type to another, in any number of steps. -/
abbrev Reaches (schema : Schema) (source target : String) : Prop :=
  Relation.ReflTransGen schema.Holds source target

/-- An input object holds itself, directly or through others. -/
abbrev ReachesItself (schema : Schema) (name : String) : Prop :=
  Relation.TransGen schema.Holds name name

/-- The expansion comes to a type, where the objects in `expanding` are not entered again. -/
inductive Expands (schema : Schema) : List String → String → String → Prop
  | here (expanding : List String) (name : String) : Expands schema expanding name name
  | inside {expanding : List String} {holder held target : String}
      (fresh : holder ∉ expanding) (holds : schema.Holds holder held)
      (further : Expands schema (holder :: expanding) held target) :
      Expands schema expanding holder target

namespace Expands

theorem reaches {expanding : List String} {source target : String}
    (expands : schema.Expands expanding source target) : schema.Reaches source target := by
  induction expands with
  | here => exact .refl
  | inside _ holds _ inductionHypothesis => exact .head holds inductionHypothesis

/-- With fewer objects closed the expansion comes to all it came to before. -/
theorem mono {fewer more : List String} {source target : String} (included : fewer ⊆ more)
    (expands : schema.Expands more source target) : schema.Expands fewer source target := by
  induction expands generalizing fewer with
  | here => exact .here _ _
  | inside fresh holds _ inductionHypothesis =>
      refine .inside (fun member => fresh (included member)) holds (inductionHypothesis ?_)
      exact List.cons_subset_cons _ included

/-- If one more object is closed, a way still avoids it, or starts anew from one of its fields. -/
theorem avoid {expanding : List String} {source target : String} (closed : String)
    (expands : schema.Expands expanding source target) :
    schema.Expands (closed :: expanding) source target ∨
      ∃ held, schema.Holds closed held ∧ schema.Expands (closed :: expanding) held target := by
  induction expands with
  | here => exact .inl (.here _ _)
  | @inside expanding holder held target fresh holds further inductionHypothesis =>
      by_cases same : holder = closed
      · subst same
        exact .inr ⟨held, holds, further⟩
      · rcases inductionHypothesis with avoiding | ⟨other, closedHolds, avoiding⟩
        · refine .inl (.inside (by simp [same, fresh]) holds (avoiding.mono ?_))
          simp [List.cons_subset]
        · refine .inr ⟨other, closedHolds, avoiding.mono ?_⟩
          simp [List.cons_subset]

end Expands

/-- The expansion misses nothing: a way through fields that visits an object twice can be cut
short. -/
theorem expands_of_reaches {source target : String} (reaches : schema.Reaches source target) :
    schema.Expands [] source target := by
  induction reaches using Relation.ReflTransGen.head_induction_on with
  | refl => exact .here _ _
  | @head source next holds _ inductionHypothesis =>
      rcases inductionHypothesis.avoid source with avoiding | ⟨held, sourceHolds, avoiding⟩
      · exact .inside List.not_mem_nil holds avoiding
      · exact .inside List.not_mem_nil sourceHolds avoiding

theorem expands_nil_iff {source target : String} :
    schema.Expands [] source target ↔ schema.Reaches source target :=
  ⟨Expands.reaches, expands_of_reaches⟩

/-! The parameter of a type by its kind. -/

theorem parameterWithin_named (expanding : List String) (name : String) (required : Bool) :
    schema.parameterWithin expanding (.named name required) =
      match schema.type? name with
      | some ⟨_, description, .enum (some values)⟩ => .choice values (.describedBy description)
      | some ⟨_, _, .enum none⟩ => .undefined name
      | some ⟨_, description, .input fields⟩ =>
        if name ∈ expanding then .unexpanded (.describedBy description)
        else
          .objectOf (fun type => schema.parameterWithin (name :: expanding) type) fields
            (.describedBy description)
      | some ⟨_, _, .scalar⟩ => .ofScalar name
      | _ => .scalar .string {} := by
  rw [parameterWithin]
  split <;> simp_all

/-- The parameter of a type, rule by rule: what it is follows from the kind of the type, and an
input object is entered when it is not being expanded already. -/
inductive ParameterOf (schema : Schema) : List String → TypeRef → Parameter → Prop
  | list {expanding : List String} {items : TypeRef} {parameter : Parameter} (required : Bool)
      (inside : ParameterOf schema expanding items parameter) :
      ParameterOf schema expanding (.list items required) (.array parameter {})
  | choice {expanding : List String} {name declared : String} {description : Option String}
      {values : List String} (required : Bool)
      (type : schema.type? name = some ⟨declared, description, .enum (some values)⟩) :
      ParameterOf schema expanding (.named name required)
        (.choice values (.describedBy description))
  | undefined {expanding : List String} {name declared : String} {description : Option String}
      (required : Bool) (type : schema.type? name = some ⟨declared, description, .enum none⟩) :
      ParameterOf schema expanding (.named name required) (.undefined name)
  | unexpanded {expanding : List String} {name declared : String} {description : Option String}
      {fields : List InputValue} (required : Bool)
      (type : schema.type? name = some ⟨declared, description, .input fields⟩)
      (again : name ∈ expanding) :
      ParameterOf schema expanding (.named name required) (.unexpanded (.describedBy description))
  | object {expanding : List String} {name declared : String} {description : Option String}
      {fields : List InputValue} (required : Bool)
      (type : schema.type? name = some ⟨declared, description, .input fields⟩)
      (fresh : name ∉ expanding)
      (inside : ∀ type,
        ParameterOf schema (name :: expanding) type
          (schema.parameterWithin (name :: expanding) type)) :
      ParameterOf schema expanding (.named name required)
        (.objectOf (schema.parameterWithin (name :: expanding)) fields (.describedBy description))
  | scalar {expanding : List String} {name declared : String} {description : Option String}
      (required : Bool) (type : schema.type? name = some ⟨declared, description, .scalar⟩) :
      ParameterOf schema expanding (.named name required) (.ofScalar name)
  | text {expanding : List String} {name : String} (required : Bool)
      (noInput : ∀ kind, schema.kind? name = some kind → kind.takesValues = false) :
      ParameterOf schema expanding (.named name required) (.scalar .string {})

theorem parameterOf_parameterWithin (schema : Schema) (expanding : List String) (type : TypeRef) :
    schema.ParameterOf expanding type (schema.parameterWithin expanding type) := by
  induction expanding, type using parameterWithin.induct schema with
  | case1 expanding items required inductionHypothesis =>
      rw [parameterWithin]
      exact .list required inductionHypothesis
  | case2 expanding name required declared description values type =>
      rw [parameterWithin_named, type]
      exact .choice required type
  | case3 expanding name required declared description type =>
      rw [parameterWithin_named, type]
      exact .undefined required type
  | case4 expanding name required declared description fields type again =>
      rw [parameterWithin_named, type]
      dsimp only
      rw [if_pos again]
      exact .unexpanded required type again
  | case5 expanding name required declared description fields type fresh inductionHypothesis =>
      rw [parameterWithin_named, type]
      dsimp only
      rw [if_neg fresh]
      exact .object required type fresh inductionHypothesis
  | case6 expanding name required declared description type =>
      rw [parameterWithin_named, type]
      exact .scalar required type
  | case7 expanding name required noChoice noEnum noObject noScalar =>
      rw [parameterWithin_named]
      split
      · exact absurd ‹_› (noChoice _ _ _)
      · exact absurd ‹_› (noEnum _ _)
      · exact absurd ‹_› (noObject _ _ _)
      · exact absurd ‹_› (noScalar _ _)
      · refine .text required fun kind found => ?_
        simp only [kind?, Option.map_eq_some_iff] at found
        obtain ⟨⟨declared, description, kind⟩, type, rfl⟩ := found
        cases kind with
        | scalar => exact absurd type (noScalar _ _)
        | enum values =>
            cases values with
            | none => exact absurd type (noEnum _ _)
            | some values => exact absurd type (noChoice _ _ _)
        | input fields => exact absurd type (noObject _ _ _)
        | _ => rfl

end GraphQL.Schema

end Toolsmith

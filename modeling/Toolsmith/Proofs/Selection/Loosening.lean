import Toolsmith.Proofs.Operation.Outcomes
import Toolsmith.Proofs.Selection.Paths
import Toolsmith.Settings

/-!
Looser policies select more. A policy that allows more levels and keeps fewer fields from being
expanded selects all that the stricter one does, in the same order: a field that is left out because
nothing is left inside it can only come back. Policies that come from the same entries select the
same, however the entries are written down.
-/

set_option autoImplicit false

namespace Toolsmith

namespace Selection

mutual

/-- The names on the way to each field, to those with fields inside as well. -/
def visits : Selection → List (List String)
  | .leaf field => [[field]]
  | .nested field members => [field] :: (allVisits members).map (field :: ·)

def allVisits : List Selection → List (List String)
  | [] => []
  | member :: rest => member.visits ++ allVisits rest

end

/-- Selections that are left when some are dropped from others, at the top or further inside. -/
inductive Within : List Selection → List Selection → Prop
  | nil : Within [] []
  | dropped {few many : List Selection} (extra : Selection) (rest : Within few many) :
      Within few (extra :: many)
  | leaf {few many : List Selection} (field : String) (rest : Within few many) :
      Within (.leaf field :: few) (.leaf field :: many)
  | nested {few many fewInside manyInside : List Selection} (field : String)
      (inside : Within fewInside manyInside) (rest : Within few many) :
      Within (.nested field fewInside :: few) (.nested field manyInside :: many)

namespace Within

theorem of_nil (many : List Selection) : Within [] many := by
  induction many with
  | nil => exact .nil
  | cons extra _ inductionHypothesis => exact .dropped extra inductionHypothesis

theorem append {few many fewBehind manyBehind : List Selection} (front : Within few many)
    (behind : Within fewBehind manyBehind) : Within (few ++ fewBehind) (many ++ manyBehind) := by
  induction front with
  | nil => exact behind
  | dropped extra _ inductionHypothesis => exact .dropped extra inductionHypothesis
  | leaf field _ inductionHypothesis => exact .leaf field inductionHypothesis
  | nested field inside _ _ inductionHypothesis => exact .nested field inside inductionHypothesis

theorem ne_nil {few many : List Selection} (within : Within few many) (nonempty : few ≠ []) :
    many ≠ [] := by
  cases within with
  | nil => exact nonempty
  | dropped => exact List.cons_ne_nil _ _
  | leaf => exact List.cons_ne_nil _ _
  | nested => exact List.cons_ne_nil _ _

theorem filterMap {α : Type} {few many : α → Option Selection}
    (each : ∀ x, Within (few x).toList (many x).toList) (items : List α) :
    Within (items.filterMap few) (items.filterMap many) := by
  rw [List.filterMap_eq_flatMap_toList, List.filterMap_eq_flatMap_toList]
  induction items with
  | nil => exact .nil
  | cons first rest inductionHypothesis => exact (each first).append inductionHypothesis

/-- The ways to the leaves are kept, and so is their order. -/
theorem allPaths_sublist {few many : List Selection} (within : Within few many) :
    (allPaths few).Sublist (allPaths many) := by
  induction within with
  | nil => exact .slnil
  | dropped extra _ inductionHypothesis =>
      exact inductionHypothesis.trans (List.sublist_append_right _ _)
  | leaf field _ inductionHypothesis => exact (List.Sublist.refl _).append inductionHypothesis
  | nested field _ _ insideHypothesis restHypothesis =>
      exact (insideHypothesis.map _).append restHypothesis

/-- The ways to all fields are kept, and so is their order. -/
theorem allVisits_sublist {few many : List Selection} (within : Within few many) :
    (allVisits few).Sublist (allVisits many) := by
  induction within with
  | nil => exact .slnil
  | dropped extra _ inductionHypothesis =>
      exact inductionHypothesis.trans (List.sublist_append_right _ _)
  | leaf field _ inductionHypothesis => exact (List.Sublist.refl _).append inductionHypothesis
  | nested field _ _ insideHypothesis restHypothesis =>
      exact ((insideHypothesis.map _).cons_cons _).append restHypothesis

end Within

end Selection

open Selection (Within)

/-! Policies. -/

namespace SelectionPolicy

/-- A policy allows as many levels as another one, and keeps no other fields from being expanded. -/
structure Loosens (loose strict : SelectionPolicy) : Prop where
  depth : strict.maxDepth ≤ loose.maxDepth
  suffixes : loose.connectionSuffixes ⊆ strict.connectionSuffixes
  excluded : loose.excludedFields ⊆ strict.excludedFields

variable {loose strict : SelectionPolicy}

theorem Loosens.allowsNested (loosens : loose.Loosens strict) {field : String} {depth : Int}
    (allowed : strict.allowsNested field depth = true) :
    loose.allowsNested field depth = true := by
  obtain ⟨below, expands⟩ := allowsNested_iff.mp allowed
  rw [allowsNested_iff]
  simp only [SelectionPolicy.expands, Bool.and_eq_true, Bool.not_eq_true', List.any_eq_false,
    List.contains_eq_mem, decide_eq_false_iff_not] at expands ⊢
  refine ⟨lt_of_lt_of_le below loosens.depth, fun member => ?_, fun ending member => ?_⟩
  · exact expands.1 (loosens.excluded member)
  · exact expands.2 ending (loosens.suffixes member)

theorem Loosens.allowsNested_eq (loosens : loose.Loosens strict) (back : strict.Loosens loose)
    (field : String) (depth : Int) :
    strict.allowsNested field depth = loose.allowsNested field depth :=
  Bool.eq_iff_iff.mpr ⟨loosens.allowsNested, back.allowsNested⟩

end SelectionPolicy

namespace GraphQL.Schema

variable {schema : Schema} {loose strict : SelectionPolicy}

theorem within_selectField {few many : Field → Option Selection} {field : Field}
    (inside : Within (few field).toList (many field).toList) :
    Within (schema.selectField few field).toList (schema.selectField many field).toList := by
  unfold selectField
  split
  · exact .nil
  · split
    · exact .leaf field.name .nil
    · split
      · exact inside
      · exact .nil

theorem within_nest? {field : String} {few many : List Selection} (within : Within few many) :
    Within (Selection.nest? field few).toList (Selection.nest? field many).toList := by
  by_cases empty : few = []
  · subst empty
    exact .of_nil _
  · rw [nest?_eq_some_iff.mpr ⟨empty, rfl⟩, nest?_eq_some_iff.mpr ⟨within.ne_nil empty, rfl⟩]
    exact .nested field within .nil

/-- At every depth a looser policy selects all that a stricter one does. -/
theorem within_selection (schema : Schema) (loosens : loose.Loosens strict) (depth : Int)
    (type : TypeRef) :
    Within (schema.selection strict depth type) (schema.selection loose depth type) := by
  induction depth using strict.depth_induction generalizing type with
  | step depth inductionHypothesis =>
      rw [selection_eq, selection_eq schema loose, selectFields, selectFields]
      apply Within.filterMap
      intro field
      apply within_selectField
      by_cases allowed : strict.allowsNested field.name depth = true
      · have below := (SelectionPolicy.allowsNested_iff.mp allowed).1
        rw [if_pos allowed, if_pos (loosens.allowsNested allowed)]
        exact within_nest? (inductionHypothesis below field.type)
      · rw [if_neg allowed]
        exact .of_nil _

/-- Policies that allow the same select the same. -/
theorem selection_congr {policy other : SelectionPolicy}
    (same : ∀ field depth, policy.allowsNested field depth = other.allowsNested field depth)
    (depth : Int) (type : TypeRef) :
    schema.selection policy depth type = schema.selection other depth type := by
  induction depth using policy.depth_induction generalizing type with
  | step depth inductionHypothesis =>
      rw [selection_eq, selection_eq schema other]
      congr 1
      funext field
      by_cases allowed : policy.allowsNested field.name depth = true
      · have below := (SelectionPolicy.allowsNested_iff.mp allowed).1
        rw [if_pos allowed, if_pos (same field.name depth ▸ allowed),
          inductionHypothesis below field.type]
      · rw [if_neg allowed, if_neg (same field.name depth ▸ allowed)]

end GraphQL.Schema

end Toolsmith

import Mathlib.Logic.Relation
import Toolsmith.Proofs.GraphQL.Schema.Declarations
import Toolsmith.Proofs.Outcome
import Toolsmith.Proofs.Selection.Tree

/-!
What is selected on a type. A way leads through fields that may be expanded to a scalar or an enum;
the selection is the tree of all these ways, with the fields of each type in the order of their
declaration. The ways get no longer than the policy allows, however the types refer to each other.
-/

set_option autoImplicit false

namespace Toolsmith

theorem SelectionPolicy.allowsNested_iff {policy : SelectionPolicy} {field : String} {depth : Int} :
    policy.allowsNested field depth = true ↔
      depth < policy.maxDepth ∧ policy.expands field = true := by
  rw [allowsNested, Bool.and_eq_true, decide_eq_true_eq]

/-- What holds at a depth if it holds one level below, as long as there are levels below, holds at
every depth. -/
theorem SelectionPolicy.depth_induction (policy : SelectionPolicy) {holds : Int → Prop}
    (step : ∀ depth, (depth < policy.maxDepth → holds (depth + 1)) → holds depth) (depth : Int) :
    holds depth := by
  obtain ⟨levels, left⟩ : ∃ levels, (policy.maxDepth - depth).toNat = levels := ⟨_, rfl⟩
  induction levels generalizing depth with
  | zero =>
      apply step
      intro below
      omega
  | succ levels inductionHypothesis =>
      apply step
      intro below
      apply inductionHypothesis
      omega

namespace GraphQL.Schema

variable {schema : Schema} {policy : SelectionPolicy}

/-- The names on a way from a type to a leaf, where every field on the way may be expanded at its
depth. -/
inductive Selectable (schema : Schema) (policy : SelectionPolicy) :
    Int → TypeRef → List String → Prop
  | leaf {depth : Int} {type : TypeRef} {fields : List Field} {field : Field} {kind : TypeKind}
      (declared : schema.fields? type.typeName = some fields) (member : field ∈ fields)
      (found : schema.kind? field.type.typeName = some kind) (leaf : kind.isLeaf = true) :
      Selectable schema policy depth type [field.name]
  | nested {depth : Int} {type : TypeRef} {fields : List Field} {field : Field}
      {rest : List String} (declared : schema.fields? type.typeName = some fields)
      (member : field ∈ fields) (allowed : policy.allowsNested field.name depth = true)
      (further : Selectable schema policy (depth + 1) field.type rest) :
      Selectable schema policy depth type (field.name :: rest)

/-- A selection of one of the fields: a scalar or an enum as it is, and a field that has fields
itself with some of them, in the order of their declaration. -/
inductive Selects (schema : Schema) : List Field → Selection → Prop
  | leaf {fields : List Field} {field : Field} {kind : TypeKind} (member : field ∈ fields)
      (found : schema.kind? field.type.typeName = some kind) (leaf : kind.isLeaf = true) :
      Selects schema fields (.leaf field.name)
  | nested {fields inner : List Field} {field : Field} {members : List Selection}
      (member : field ∈ fields) (found : schema.fields? field.type.typeName = some inner)
      (nonempty : members ≠ [])
      (order : (members.map Selection.name).Sublist (inner.map (·.name)))
      (each : ∀ member ∈ members, Selects schema inner member) :
      Selects schema fields (.nested field.name members)

/-- The fields of a type in the order of their declaration; none if it has no fields. -/
def selectableFields (schema : Schema) (type : TypeRef) : List Field :=
  (schema.fields? type.typeName).getD []

/-- Selections of fields of a type, in the order of their declaration. -/
structure Arranges (schema : Schema) (type : TypeRef) (members : List Selection) : Prop where
  order : (members.map Selection.name).Sublist ((schema.selectableFields type).map (·.name))
  each : ∀ member ∈ members, schema.Selects (schema.selectableFields type) member

/-- A type has a field of another type, inside lists or not. -/
def Offers (schema : Schema) (holder held : String) : Prop :=
  ∃ fields, schema.fields? holder = some fields ∧ ∃ field ∈ fields, field.type.typeName = held

/-- Fields of objects and interfaces lead from one type to another, in any number of steps. -/
abbrev LeadsTo (schema : Schema) (source target : String) : Prop :=
  Relation.ReflTransGen schema.Offers source target

theorem mem_selectableFields {type : TypeRef} {field : Field} :
    field ∈ schema.selectableFields type ↔
      ∃ fields, schema.fields? type.typeName = some fields ∧ field ∈ fields := by
  unfold selectableFields
  cases schema.fields? type.typeName <;> simp

theorem selectableFields_of_fields? {type : TypeRef} {fields : List Field}
    (found : schema.fields? type.typeName = some fields) :
    schema.selectableFields type = fields := by
  rw [selectableFields, found, Option.getD_some]

/-! One step of a selection. -/

theorem selectField_eq_some_iff {inside : Field → Option Selection} {field : Field}
    {member : Selection} :
    schema.selectField inside field = some member ↔
      (∃ kind, schema.kind? field.type.typeName = some kind ∧ kind.isLeaf = true ∧
        member = .leaf field.name) ∨
      ((schema.fields? field.type.typeName).isSome ∧ inside field = some member) := by
  unfold selectField fields?
  cases schema.kind? field.type.typeName with
  | none => simp
  | some kind =>
      cases kind with
      | scalar => simpa [TypeKind.isLeaf, TypeKind.fields?] using eq_comm
      | enum => simpa [TypeKind.isLeaf, TypeKind.fields?] using eq_comm
      | object => simp [TypeKind.isLeaf, TypeKind.fields?]
      | interface => simp [TypeKind.isLeaf, TypeKind.fields?]
      | union => simp [TypeKind.isLeaf, TypeKind.fields?]
      | input => simp [TypeKind.isLeaf, TypeKind.fields?]

theorem nest?_eq_some_iff {field : String} {members : List Selection} {member : Selection} :
    Selection.nest? field members = some member ↔
      members ≠ [] ∧ member = .nested field members := by
  cases members with
  | nil => simp [Selection.nest?]
  | cons => simp [Selection.nest?, eq_comm]

theorem selection_eq_nil {depth : Int} {type : TypeRef}
    (fieldless : schema.fields? type.typeName = none) :
    schema.selection policy depth type = [] := by
  unfold selection
  cases (policy.maxDepth - depth).toNat <;> simp [selectWithin, selectFields, fieldless]

/-- What can be selected at a depth, told from what is selected one level below. -/
theorem selection_eq (schema : Schema) (policy : SelectionPolicy) (depth : Int) (type : TypeRef) :
    schema.selection policy depth type =
      schema.selectFields
        (fun field =>
          if policy.allowsNested field.name depth then
            Selection.nest? field.name (schema.selection policy (depth + 1) field.type)
          else none)
        type.typeName := by
  by_cases below : depth < policy.maxDepth
  · have levels : (policy.maxDepth - depth).toNat =
        (policy.maxDepth - (depth + 1)).toNat + 1 := by omega
    simp only [selection, levels, selectWithin, SelectionPolicy.allowsNested, below, decide_true,
      Bool.true_and]
  · have levels : (policy.maxDepth - depth).toNat = 0 := by omega
    simp only [selection, levels, selectWithin, SelectionPolicy.allowsNested, below, decide_false,
      Bool.false_and, Bool.false_eq_true, if_false]

theorem mem_selection_iff {depth : Int} {type : TypeRef} {member : Selection} :
    member ∈ schema.selection policy depth type ↔
      ∃ field ∈ schema.selectableFields type,
        (∃ kind, schema.kind? field.type.typeName = some kind ∧ kind.isLeaf = true ∧
          member = .leaf field.name) ∨
        (policy.allowsNested field.name depth = true ∧
          schema.selection policy (depth + 1) field.type ≠ [] ∧
          member = .nested field.name (schema.selection policy (depth + 1) field.type)) := by
  have inside : ∀ field : Field,
      ((schema.fields? field.type.typeName).isSome ∧
        (if policy.allowsNested field.name depth = true then
            Selection.nest? field.name (schema.selection policy (depth + 1) field.type)
          else none) = some member) ↔
      policy.allowsNested field.name depth = true ∧
        schema.selection policy (depth + 1) field.type ≠ [] ∧
        member = .nested field.name (schema.selection policy (depth + 1) field.type) := by
    intro field
    by_cases allowed : policy.allowsNested field.name depth = true
    · rw [if_pos allowed, nest?_eq_some_iff]
      constructor
      · rintro ⟨_, nonempty, same⟩
        exact ⟨allowed, nonempty, same⟩
      · rintro ⟨_, nonempty, same⟩
        refine ⟨?_, nonempty, same⟩
        rw [← Option.ne_none_iff_isSome]
        intro fieldless
        exact nonempty (selection_eq_nil fieldless)
    · simp [allowed]
  rw [selection_eq, selectFields, ← selectableFields, List.mem_filterMap]
  simp only [selectField_eq_some_iff, inside]

/-! The selection as a tree. -/

theorem names_filterMap_sublist {select : Field → Option Selection}
    (named : ∀ field member, select field = some member → member.name = field.name)
    (fields : List Field) :
    ((fields.filterMap select).map Selection.name).Sublist (fields.map (·.name)) := by
  induction fields with
  | nil => exact List.Sublist.slnil
  | cons field rest inductionHypothesis =>
      cases chosen : select field with
      | none =>
          rw [List.filterMap_cons_none chosen, List.map_cons]
          exact inductionHypothesis.cons _
      | some member =>
          rw [List.filterMap_cons_some chosen, List.map_cons, List.map_cons,
            named field member chosen]
          exact inductionHypothesis.cons_cons _

theorem selection_order (schema : Schema) (policy : SelectionPolicy) (depth : Int)
    (type : TypeRef) :
    ((schema.selection policy depth type).map Selection.name).Sublist
      ((schema.selectableFields type).map (·.name)) := by
  rw [selection_eq, selectFields]
  apply names_filterMap_sublist
  intro field member chosen
  rcases selectField_eq_some_iff.mp chosen with ⟨_, _, _, rfl⟩ | ⟨_, inside⟩
  · rfl
  · split at inside
    · obtain ⟨_, rfl⟩ := nest?_eq_some_iff.mp inside
      rfl
    · contradiction

theorem arranges_selection (schema : Schema) (policy : SelectionPolicy) (depth : Int)
    (type : TypeRef) : schema.Arranges type (schema.selection policy depth type) := by
  induction depth using policy.depth_induction generalizing type with
  | step depth inductionHypothesis =>
      refine ⟨selection_order schema policy depth type, ?_⟩
      intro member selected
      obtain ⟨field, declared, leaf | nested⟩ := mem_selection_iff.mp selected
      · obtain ⟨kind, found, isLeaf, rfl⟩ := leaf
        exact .leaf declared found isLeaf
      · obtain ⟨allowed, nonempty, rfl⟩ := nested
        have below := (SelectionPolicy.allowsNested_iff.mp allowed).1
        have inner := inductionHypothesis below field.type
        cases found : schema.fields? field.type.typeName with
        | none => exact absurd (selection_eq_nil found) nonempty
        | some fields =>
            have same := selectableFields_of_fields? found
            refine .nested declared found nonempty ?_ ?_
            · rw [← same]
              exact inner.order
            · rw [← same]
              exact inner.each

theorem Selects.isFilled {fields : List Field} {member : Selection}
    (selects : schema.Selects fields member) : member.IsFilled := by
  induction selects with
  | leaf => exact .leaf _
  | nested _ _ nonempty _ _ inductionHypothesis => exact .nested nonempty inductionHypothesis

theorem Arranges.isFilled {type : TypeRef} {members : List Selection}
    (arranges : schema.Arranges type members) : ∀ member ∈ members, member.IsFilled :=
  fun member included => (arranges.each member included).isFilled

/-- The ways through the selection are those that may be selected, and no others. -/
theorem mem_allPaths_selection_iff {depth : Int} {type : TypeRef} {path : List String} :
    path ∈ Selection.allPaths (schema.selection policy depth type) ↔
      schema.Selectable policy depth type path := by
  constructor
  · intro lies
    induction path generalizing depth type with
    | nil =>
        obtain ⟨member, _, own⟩ := Selection.mem_allPaths.mp lies
        obtain ⟨_, same⟩ := Selection.exists_tail_of_mem_paths own
        contradiction
    | cons name rest inductionHypothesis =>
        obtain ⟨member, selected, own⟩ := Selection.mem_allPaths.mp lies
        obtain ⟨field, declared, leaf | nested⟩ := mem_selection_iff.mp selected
        · obtain ⟨kind, found, isLeaf, rfl⟩ := leaf
          obtain ⟨fields, object, member⟩ := mem_selectableFields.mp declared
          rw [Selection.paths, List.mem_singleton] at own
          rw [own]
          exact .leaf object member found isLeaf
        · obtain ⟨allowed, _, rfl⟩ := nested
          obtain ⟨fields, object, member⟩ := mem_selectableFields.mp declared
          obtain ⟨further, below, same⟩ := Selection.mem_paths_nested.mp own
          obtain ⟨rfl, rfl⟩ := List.cons.inj same
          exact .nested object member allowed (inductionHypothesis below)
  · intro selectable
    induction selectable with
    | @leaf depth type fields field kind declared member found leaf =>
        apply Selection.mem_allPaths.mpr
        refine ⟨.leaf field.name, mem_selection_iff.mpr ⟨field, ?_, .inl ?_⟩, ?_⟩
        · exact mem_selectableFields.mpr ⟨fields, declared, member⟩
        · exact ⟨kind, found, leaf, rfl⟩
        · exact List.mem_singleton.mpr rfl
    | @nested depth type fields field rest declared member allowed _ inductionHypothesis =>
        have nonempty : schema.selection policy (depth + 1) field.type ≠ [] := by
          intro empty
          simp [empty, Selection.allPaths] at inductionHypothesis
        apply Selection.mem_allPaths.mpr
        refine ⟨.nested field.name (schema.selection policy (depth + 1) field.type),
          mem_selection_iff.mpr ⟨field, ?_, .inr ?_⟩, ?_⟩
        · exact mem_selectableFields.mpr ⟨fields, declared, member⟩
        · exact ⟨allowed, nonempty, rfl⟩
        · exact Selection.mem_paths_nested.mpr ⟨rest, inductionHypothesis, rfl⟩

theorem heightOfAll_selection_le (schema : Schema) (policy : SelectionPolicy) (depth : Int)
    (type : TypeRef) :
    Selection.heightOfAll (schema.selection policy depth type) ≤
      (policy.maxDepth - depth).toNat + 1 := by
  induction depth using policy.depth_induction generalizing type with
  | step depth inductionHypothesis =>
      apply Selection.heightOfAll_le_iff.mpr
      intro member selected
      obtain ⟨field, _, leaf | nested⟩ := mem_selection_iff.mp selected
      · obtain ⟨_, _, _, rfl⟩ := leaf
        rw [Selection.height]
        omega
      · obtain ⟨allowed, _, rfl⟩ := nested
        have below := (SelectionPolicy.allowsNested_iff.mp allowed).1
        have inner := inductionHypothesis below field.type
        rw [Selection.height]
        omega

/-! Trees of the same ways. -/

theorem Selects.eq_of_paths_iff (once : schema.DeclaresOnce) {fields : List Field}
    (distinct : (fields.map (·.name)).Nodup) {first second : Selection}
    (selects : schema.Selects fields first) (also : schema.Selects fields second)
    (named : first.name = second.name)
    (same : ∀ path, path ∈ first.paths ↔ path ∈ second.paths) : first = second := by
  induction selects generalizing second with
  | @leaf fields field =>
      cases also with
      | leaf => exact congrArg Selection.leaf named
      | @nested _ _ other members =>
          have alone := (same [field.name]).mp (List.mem_singleton.mpr rfl)
          exact absurd alone Selection.singleton_notMem_paths_nested
  | @nested fields inner field members member found nonempty order each inductionHypothesis =>
      cases also with
      | @leaf _ other =>
          have alone := (same [other.name]).mpr (List.mem_singleton.mpr rfl)
          exact absurd alone Selection.singleton_notMem_paths_nested
      | @nested _ otherInner other otherMembers otherMember otherFound _ otherOrder otherEach =>
          obtain rfl : field = other := List.inj_on_of_nodup_map distinct member otherMember named
          obtain rfl : inner = otherInner := Option.some.inj (found.symm.trans otherFound)
          have innerDistinct := once.nodup_fields found
          have below : ∀ path,
              path ∈ Selection.allPaths members ↔ path ∈ Selection.allPaths otherMembers := by
            intro path
            simpa [Selection.mem_paths_nested] using same (field.name :: path)
          rw [Selection.eq_of_allPaths_iff innerDistinct order otherOrder
            (fun one included => (each one included).isFilled)
            (fun one included => (otherEach one included).isFilled) below
            fun one included two also => inductionHypothesis one included innerDistinct
              (otherEach two also)]

theorem DeclaresOnce.nodup_selectableFields (once : schema.DeclaresOnce) (type : TypeRef) :
    ((schema.selectableFields type).map (·.name)).Nodup := by
  unfold selectableFields
  cases found : schema.fields? type.typeName with
  | none => exact List.nodup_nil
  | some fields => exact once.nodup_fields found

/-- A tree of fields in the order of their declaration is known by its ways. -/
theorem Arranges.eq_of_allPaths_iff (once : schema.DeclaresOnce) {type : TypeRef}
    {first second : List Selection} (arranges : schema.Arranges type first)
    (also : schema.Arranges type second)
    (same : ∀ path, path ∈ Selection.allPaths first ↔ path ∈ Selection.allPaths second) :
    first = second := by
  have distinct := once.nodup_selectableFields type
  apply Selection.eq_of_allPaths_iff distinct arranges.order also.order arranges.isFilled
    also.isFilled same
  intro one included other member
  exact (arranges.each one included).eq_of_paths_iff once distinct (also.each other member)

theorem Selects.areDistinct (once : schema.DeclaresOnce) {fields : List Field} {field : String}
    {inner : List Selection} (selects : schema.Selects fields (.nested field inner)) :
    Selection.AreDistinct inner := by
  generalize same : Selection.nested field inner = selection at selects
  induction selects generalizing field inner with
  | leaf => contradiction
  | nested _ found _ order _ inductionHypothesis =>
      obtain ⟨_, rfl⟩ := Selection.nested.inj same
      apply Selection.AreDistinct.siblings (order.nodup (once.nodup_fields found))
      intro name below included
      exact inductionHypothesis _ included rfl

theorem Arranges.areDistinct (once : schema.DeclaresOnce) {type : TypeRef}
    {members : List Selection} (arranges : schema.Arranges type members) :
    Selection.AreDistinct members := by
  apply Selection.AreDistinct.siblings
  · exact arranges.order.nodup (once.nodup_selectableFields type)
  · intro field inner included
    exact (arranges.each _ included).areDistinct once

/-- The selection on a type is the tree of the ways that may be selected, with the fields of each
type in the order of their declaration; it is empty when there is no way, and written in words with
a blank between every two when there is one. It is no higher than the policy allows. Where no type
declares a name twice, as in every schema that is read, no field is selected twice side by side and
no other tree has these ways. -/
theorem selection_tree_of_paths (schema : Schema) (policy : SelectionPolicy) (depth : Int)
    (type : TypeRef) :
    (∀ path, path ∈ Selection.allPaths (schema.selection policy depth type) ↔
        schema.Selectable policy depth type path) ∧
      (Selection.writeSet (schema.selection policy depth type) = [] ↔
        ∀ path, ¬ schema.Selectable policy depth type path) ∧
      ((∃ path, schema.Selectable policy depth type path) →
        Selection.writeSet (schema.selection policy depth type) =
          List.intercalate [' '] (Selection.setWords (schema.selection policy depth type))) ∧
      schema.Arranges type (schema.selection policy depth type) ∧
      (Selection.heightOfAll (schema.selection policy depth type) : Int) ≤
        max (policy.maxDepth - depth) 0 + 1 ∧
      (schema.DeclaresOnce →
        Selection.AreDistinct (schema.selection policy depth type) ∧
          ∀ members, schema.Arranges type members →
            (∀ path, path ∈ Selection.allPaths members ↔
              schema.Selectable policy depth type path) →
            members = schema.selection policy depth type) ∧
      ∀ source, Schema.ofSource source = .ok schema → schema.DeclaresOnce := by
  have arranges := arranges_selection schema policy depth type
  have paths : ∀ path, path ∈ Selection.allPaths (schema.selection policy depth type) ↔
      schema.Selectable policy depth type path := fun _ => mem_allPaths_selection_iff
  have empty : schema.selection policy depth type = [] ↔
      ∀ path, ¬ schema.Selectable policy depth type path := by
    simp only [← paths]
    exact Selection.eq_nil_iff_allPaths arranges.isFilled
  refine ⟨paths, ?_, ?_, arranges, ?_, ?_, fun _ => declaresOnce_ofSource⟩
  · rw [Selection.writeSet_eq_nil_iff, empty]
  · rintro ⟨path, selectable⟩
    apply Selection.writeSet_eq_intercalate _ arranges.isFilled
    intro none
    exact empty.mp none path selectable
  · have bounded := heightOfAll_selection_le schema policy depth type
    omega
  · intro once
    refine ⟨arranges.areDistinct once, fun members also same => ?_⟩
    apply also.eq_of_allPaths_iff once arranges
    intro path
    rw [same, paths]

theorem selection_tree_of_paths_sample :
    ∃ schema,
      Schema.ofSource
          ("union U = N type Query { n: N } " ++
            "type N { id: ID next: [N!] u: U newestConnection: N q: Query }") = .ok schema ∧
        schema.DeclaresOnce ∧
        ¬ schema.Selectable { maxDepth := 2 } 0 (.named "N" true) ["next", "q"] ∧
        schema.Selectable { maxDepth := 2 } 0 (.named "N" true) ["next", "next", "id"] ∧
        ∀ members, schema.Arranges (.named "N" true) members →
          (∀ path, path ∈ Selection.allPaths members ↔
            schema.Selectable { maxDepth := 2 } 0 (.named "N" true) path) →
          members = schema.selection { maxDepth := 2 } 0 (.named "N" true) := by
  obtain ⟨schema, accepted, checked⟩ := Except.exists_eq_ok_of_any
    (Schema.ofSource
      ("union U = N type Query { n: N } " ++
        "type N { id: ID next: [N!] u: U newestConnection: N q: Query }"))
    (fun schema =>
      (["next", "q"] ∉ Selection.allPaths
        (schema.selection { maxDepth := 2 } 0 (.named "N" true))) &&
      (["next", "next", "id"] ∈ Selection.allPaths
        (schema.selection { maxDepth := 2 } 0 (.named "N" true))))
    (by decide +kernel)
  simp only [Bool.and_eq_true, decide_eq_true_eq] at checked
  obtain ⟨paths, _, _, _, _, unique, once⟩ :=
    selection_tree_of_paths schema { maxDepth := 2 } 0 (.named "N" true)
  rw [paths, paths] at checked
  exact ⟨schema, accepted, once _ accepted, checked.1, checked.2,
    (unique (once _ accepted)).2⟩

end GraphQL.Schema

end Toolsmith

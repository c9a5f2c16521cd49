import Toolsmith.Proofs.Operation.Reading
import Toolsmith.Proofs.Selection.Paths

/-!
Arguments of fields that are selected below the root. An operation writes none there, and a field is
selected by its type, its name and its depth, whatever arguments it declares. So a field that cannot
be selected without arguments is selected wherever the policy leads to it.
-/

set_option autoImplicit false

namespace Toolsmith

/-- Whether there are braces behind the field. -/
def Selection.isNested : Selection → Bool
  | .leaf _ => false
  | .nested _ _ => true

namespace GraphQL

/-- An argument that has to be given: it may not be null and has no default. -/
def InputValue.isNeeded (value : InputValue) : Bool :=
  value.type.isRequired && value.default.isNone

/-- A field that cannot be selected without arguments. -/
def Field.needsArguments (field : Field) : Bool :=
  field.arguments.any InputValue.isNeeded

def Field.withoutArguments (field : Field) : Field :=
  { field with arguments := [] }

/-- A kind whose fields to be selected are without arguments. -/
def TypeKind.withoutArguments : TypeKind → TypeKind
  | .object fields => .object (fields.map Field.withoutArguments)
  | .interface fields => .interface (fields.map Field.withoutArguments)
  | kind => kind

def TypeDefinition.withoutArguments (definition : TypeDefinition) : TypeDefinition :=
  { definition with kind := definition.kind.withoutArguments }

namespace Schema

variable {schema : Schema} {policy : SelectionPolicy}

def withoutArguments (schema : Schema) : Schema :=
  { schema with types := schema.types.map TypeDefinition.withoutArguments }

/-- Selections on a type select a field, side by side or at any level below. -/
inductive Picks (schema : Schema) : TypeRef → List Selection → Field → Prop
  | here {type : TypeRef} {members : List Selection} {member : Selection} {field : Field}
      (declared : field ∈ schema.selectableFields type) (included : member ∈ members)
      (named : member.name = field.name) : Picks schema type members field
  | inside {type : TypeRef} {members inner : List Selection} {outer field : Field}
      (declared : outer ∈ schema.selectableFields type)
      (included : .nested outer.name inner ∈ members)
      (further : Picks schema outer.type inner field) : Picks schema type members field

/-- The policy leads from a type through a field to a leaf. -/
inductive LeadsThrough (schema : Schema) (policy : SelectionPolicy) :
    Int → TypeRef → Field → Prop
  | leaf {depth : Int} {type : TypeRef} {field : Field} {kind : TypeKind}
      (declared : field ∈ schema.selectableFields type)
      (found : schema.kind? field.type.typeName = some kind) (leaf : kind.isLeaf = true) :
      LeadsThrough schema policy depth type field
  | nested {depth : Int} {type : TypeRef} {field : Field} {rest : List String}
      (declared : field ∈ schema.selectableFields type)
      (allowed : policy.allowsNested field.name depth = true)
      (further : schema.Selectable policy (depth + 1) field.type rest) :
      LeadsThrough schema policy depth type field
  | inside {depth : Int} {type : TypeRef} {outer field : Field}
      (declared : outer ∈ schema.selectableFields type)
      (allowed : policy.allowsNested outer.name depth = true)
      (further : LeadsThrough schema policy (depth + 1) outer.type field) :
      LeadsThrough schema policy depth type field

theorem selection_ne_nil_iff {depth : Int} {type : TypeRef} :
    schema.selection policy depth type ≠ [] ↔ ∃ path, schema.Selectable policy depth type path := by
  have filled := (arranges_selection schema policy depth type).isFilled
  rw [Ne, Selection.eq_nil_iff_allPaths filled]
  simp only [mem_allPaths_selection_iff, not_forall, not_not]

theorem Picks.ne_nil {type : TypeRef} {members : List Selection} {field : Field}
    (picks : schema.Picks type members field) : members ≠ [] := by
  cases picks with
  | here _ included => exact List.ne_nil_of_mem included
  | inside _ included => exact List.ne_nil_of_mem included

theorem DeclaresOnce.eq_of_selectableFields (once : schema.DeclaresOnce) {type : TypeRef}
    {first second : Field} (declared : first ∈ schema.selectableFields type)
    (also : second ∈ schema.selectableFields type) (named : first.name = second.name) :
    first = second :=
  List.inj_on_of_nodup_map (once.nodup_selectableFields type) declared also named

/-- The fields that are selected, at all levels, are those that the policy leads through. -/
theorem picks_selection_iff (once : schema.DeclaresOnce) {depth : Int} {type : TypeRef}
    {field : Field} :
    schema.Picks type (schema.selection policy depth type) field ↔
      schema.LeadsThrough policy depth type field := by
  constructor
  · intro picks
    generalize same : schema.selection policy depth type = members at picks
    induction picks generalizing depth with
    | here declared included named =>
        subst same
        obtain ⟨own, ownDeclared, leaf | nested⟩ := mem_selection_iff.mp included
        · obtain ⟨kind, found, isLeaf, rfl⟩ := leaf
          obtain rfl := once.eq_of_selectableFields ownDeclared declared named
          exact .leaf declared found isLeaf
        · obtain ⟨allowed, nonempty, rfl⟩ := nested
          obtain rfl := once.eq_of_selectableFields ownDeclared declared named
          obtain ⟨path, further⟩ := selection_ne_nil_iff.mp nonempty
          exact .nested declared allowed further
    | inside declared included _ inductionHypothesis =>
        subst same
        obtain ⟨own, ownDeclared, leaf | nested⟩ := mem_selection_iff.mp included
        · obtain ⟨_, _, _, impossible⟩ := leaf
          contradiction
        · obtain ⟨allowed, _, same⟩ := nested
          obtain ⟨named, rfl⟩ := Selection.nested.inj same
          obtain rfl := once.eq_of_selectableFields declared ownDeclared named
          exact .inside declared allowed (inductionHypothesis rfl)
  · intro leads
    induction leads with
    | leaf declared found leaf =>
        exact .here declared (mem_selection_iff.mpr ⟨_, declared, .inl ⟨_, found, leaf, rfl⟩⟩) rfl
    | nested declared allowed further =>
        have nonempty := selection_ne_nil_iff.mpr ⟨_, further⟩
        exact .here declared
          (mem_selection_iff.mpr ⟨_, declared, .inr ⟨allowed, nonempty, rfl⟩⟩) rfl
    | inside declared allowed _ inductionHypothesis =>
        have nonempty := inductionHypothesis.ne_nil
        exact .inside declared
          (mem_selection_iff.mpr ⟨_, declared, .inr ⟨allowed, nonempty, rfl⟩⟩) inductionHypothesis

/-- The policy leads only through fields of types that fields lead to. -/
theorem LeadsThrough.exists_holder {depth : Int} {type : TypeRef} {field : Field}
    (leads : schema.LeadsThrough policy depth type field) :
    ∃ holder fields, schema.LeadsTo type.typeName holder ∧
      schema.fields? holder = some fields ∧ field ∈ fields := by
  induction leads with
  | leaf declared =>
      obtain ⟨fields, found, member⟩ := mem_selectableFields.mp declared
      exact ⟨_, fields, .refl, found, member⟩
  | nested declared =>
      obtain ⟨fields, found, member⟩ := mem_selectableFields.mp declared
      exact ⟨_, fields, .refl, found, member⟩
  | inside declared _ _ inductionHypothesis =>
      obtain ⟨outerFields, outerFound, outerMember⟩ := mem_selectableFields.mp declared
      obtain ⟨holder, fields, reached, found, member⟩ := inductionHypothesis
      exact ⟨holder, fields, .head ⟨outerFields, outerFound, _, outerMember, rfl⟩ reached, found,
        member⟩

/-! Schemas without arguments. -/

theorem kind?_withoutArguments (name : String) :
    schema.withoutArguments.kind? name = (schema.kind? name).map TypeKind.withoutArguments := by
  have named : ((fun type : TypeDefinition => decide (type.name = name)) ∘
      TypeDefinition.withoutArguments) = fun type => decide (type.name = name) := rfl
  rw [kind?, kind?, type?, type?, withoutArguments, List.find?_map, named, Option.map_map,
    Option.map_map]
  rfl

theorem fields?_withoutArguments (name : String) :
    schema.withoutArguments.fields? name =
      (schema.fields? name).map (List.map Field.withoutArguments) := by
  rw [fields?, fields?, kind?_withoutArguments]
  cases schema.kind? name with
  | none => rfl
  | some kind => cases kind <;> rfl

theorem selectField_withoutArguments {inside : Field → Option Selection} {field : Field}
    (same : inside field.withoutArguments = inside field) :
    schema.withoutArguments.selectField inside field.withoutArguments =
      schema.selectField inside field := by
  have type : field.withoutArguments.type = field.type := rfl
  have name : field.withoutArguments.name = field.name := rfl
  simp only [selectField, kind?_withoutArguments, type, name, same]
  cases schema.kind? field.type.typeName with
  | none => rfl
  | some kind => cases kind <;> rfl

theorem selectFields_withoutArguments {inside : Field → Option Selection}
    (same : ∀ field, inside field.withoutArguments = inside field) (typeName : String) :
    schema.withoutArguments.selectFields inside typeName =
      schema.selectFields inside typeName := by
  rw [selectFields, selectFields, fields?_withoutArguments]
  cases schema.fields? typeName with
  | none => rfl
  | some fields =>
      rw [Option.map_some, Option.getD_some, Option.getD_some, List.filterMap_map]
      apply List.filterMap_congr
      intro field _
      exact selectField_withoutArguments (same field)

/-- What is selected does not depend on the arguments that fields declare. -/
theorem selection_withoutArguments (depth : Int) (type : TypeRef) :
    schema.withoutArguments.selection policy depth type = schema.selection policy depth type := by
  induction depth using policy.depth_induction generalizing type with
  | step depth inductionHypothesis =>
      rw [selection_eq, selection_eq]
      have inside : ∀ field : Field,
          (if policy.allowsNested field.name depth = true then
              Selection.nest? field.name
                (schema.withoutArguments.selection policy (depth + 1) field.type)
            else none) =
          if policy.allowsNested field.name depth = true then
            Selection.nest? field.name (schema.selection policy (depth + 1) field.type)
          else none := by
        intro field
        by_cases allowed : policy.allowsNested field.name depth = true
        · rw [if_pos allowed, if_pos allowed,
            inductionHypothesis (SelectionPolicy.allowsNested_iff.mp allowed).1]
        · rw [if_neg allowed, if_neg allowed]
      simp only [inside]
      exact selectFields_withoutArguments (fun _ => rfl) type.typeName

/-! Operations. -/

/-- The operation of a tool, read back, has no arguments below its root field, and what is selected
there does not depend on the arguments that fields declare. The fields selected are those that the
policy leads through from the type of the root field; so one that cannot be selected without
arguments is among them exactly when the policy leads through one, and none is when no type that
fields lead to from there declares one. -/
theorem compile_picks_iff {source : String} (accepted : ofSource source = .ok schema) {call : Call}
    {operation : Operation} (compiled : schema.compile policy call = .ok operation) :
    ∃ field ∈ schema.rootFields operation.kind,
      call.name = ToolName.text ⟨operation.kind, field.name⟩ ∧
      (∃ arguments, Executable.read? operation.text =
        some [.operation operation.kind.keyword none [] []
          [.field none field.name arguments [] (Selection.allPlain operation.selection)]]) ∧
      schema.withoutArguments.selection policy 0 field.type = operation.selection ∧
      (∀ inner, schema.Picks field.type operation.selection inner ↔
        schema.LeadsThrough policy 0 field.type inner) ∧
      ((∃ inner, schema.Picks field.type operation.selection inner ∧ inner.needsArguments = true) ↔
        ∃ inner, schema.LeadsThrough policy 0 field.type inner ∧ inner.needsArguments = true) ∧
      ((∀ holder fields, schema.LeadsTo field.type.typeName holder →
          schema.fields? holder = some fields → ∀ inner ∈ fields, inner.needsArguments = false) →
        ∀ inner, schema.Picks field.type operation.selection inner →
          inner.needsArguments = false) := by
  obtain ⟨field, found, parted, fieldName, _, selection⟩ := parts_of_compile compiled
  have read := Operation.read?_text (wellFormed_compile (isNamed_ofSource accepted) compiled)
  rw [fieldName] at read
  have picks : ∀ inner, schema.Picks field.type operation.selection inner ↔
      schema.LeadsThrough policy 0 field.type inner := by
    rw [selection]
    exact fun _ => picks_selection_iff (declaresOnce_ofSource accepted)
  refine ⟨field, List.mem_of_find?_eq_some found, ToolName.eq_text_of_split? parted, ⟨_, read⟩, ?_,
    picks, ?_, ?_⟩
  · rw [selection, selection_withoutArguments]
  · simp only [picks]
  · intro none inner picked
    obtain ⟨holder, fields, leads, declared, member⟩ := ((picks inner).mp picked).exists_holder
    exact none holder fields leads declared inner member

/-- A field that needs an argument is left out where the policy does not expand it. -/
theorem compile_picks_iff_sample :
    ∃ schema operation field,
      ofSource "type Query { f(x: Int): T } type T { id: ID t(a: [Int]!): T }" = .ok schema ∧
        schema.compile { maxDepth := 0 } ⟨"query-tool_f", [(.str "x", .int 1)]⟩ = .ok operation ∧
        operation.text = "query { f(x: 1) { id } }" ∧
        field ∈ schema.rootFields operation.kind ∧
        (schema.selectableFields field.type).any Field.needsArguments = true ∧
        ¬ ∃ inner, schema.LeadsThrough { maxDepth := 0 } 0 field.type inner ∧
          inner.needsArguments = true := by
  obtain ⟨schema, accepted, checked⟩ := Except.exists_eq_ok_of_any
    (ofSource "type Query { f(x: Int): T } type T { id: ID t(a: [Int]!): T }")
    (fun schema =>
      (schema.rootFields .query).all (fun field =>
        (schema.selectableFields field.type).any Field.needsArguments &&
          (schema.selectableFields field.type).all fun inner =>
            inner.name ≠ "id" || !inner.needsArguments) &&
      (schema.compile { maxDepth := 0 } ⟨"query-tool_f", [(.str "x", .int 1)]⟩).toOption.any
        fun operation =>
          operation.kind = .query && operation.text = "query { f(x: 1) { id } }" &&
            operation.selection.all fun member => !member.isNested && member.name = "id")
    (by decide +kernel)
  obtain ⟨roots, compiles⟩ := Bool.and_eq_true_iff.mp checked
  obtain ⟨operation, compiled, checked⟩ := Except.exists_eq_ok_of_any _ _ compiles
  simp only [Bool.and_eq_true, decide_eq_true_eq, List.all_eq_true, Bool.not_eq_true',
    Bool.or_eq_true] at checked roots
  obtain ⟨⟨kind, text⟩, leaves⟩ := checked
  obtain ⟨field, declared, _, _, _, _, needs, _⟩ := compile_picks_iff accepted compiled
  obtain ⟨somewhere, notThere⟩ := roots field (kind ▸ declared)
  refine ⟨schema, operation, field, accepted, compiled, text, declared, somewhere, ?_⟩
  rw [← needs]
  rintro ⟨inner, picks, needed⟩
  cases picks with
  | here own included named =>
      obtain ⟨_, isId⟩ := leaves _ included
      rcases notThere inner own with other | bare
      · exact other (named.symm.trans isId)
      · rw [needed] at bare
        contradiction
  | inside _ included _ =>
      have leaf := (leaves _ included).1
      contradiction

/-- A field that needs an argument is selected like any other, and without its argument. -/
theorem compile_selects_needing_field :
    ∃ schema tools operation field inner,
      ofSource "type Query { f: T } type T { id: ID x(a: Int!): Int }" = .ok schema ∧
        schema.tools = .ok tools ∧ (∃ tool ∈ tools, tool.name = "query-tool_f") ∧
        schema.compile .standard ⟨"query-tool_f", []⟩ = .ok operation ∧
        operation.text = "query { f { id x } }" ∧
        field ∈ schema.rootFields .query ∧ field.name = "f" ∧
        schema.Picks field.type operation.selection inner ∧
        ∃ argument ∈ inner.arguments,
          argument.type.isRequired = true ∧ argument.default.isNone = true := by
  obtain ⟨schema, accepted, checked⟩ := Except.exists_eq_ok_of_any
    (ofSource "type Query { f: T } type T { id: ID x(a: Int!): Int }")
    (fun schema =>
      schema.isPlain &&
        (schema.compile .standard ⟨"query-tool_f", []⟩).toOption.any fun operation =>
          operation.text = "query { f { id x } }" &&
            (schema.rootFields .query).any fun field =>
              field.name = "f" && (schema.selectableFields field.type).any fun inner =>
                operation.selection.any (fun member => member.name = inner.name) &&
                  inner.arguments.any InputValue.isNeeded)
    (by decide +kernel)
  obtain ⟨plain, compiles⟩ := Bool.and_eq_true_iff.mp checked
  obtain ⟨operation, compiled, checked⟩ := Except.exists_eq_ok_of_any _ _ compiles
  simp only [Bool.and_eq_true, decide_eq_true_eq, List.any_eq_true, InputValue.isNeeded] at checked
  obtain ⟨text, field, declared, named, inner, own, ⟨member, included, same⟩, needed⟩ := checked
  obtain ⟨tools, ok⟩ := exists_tools_of_isPlain plain
  obtain ⟨_, _, _, reached, _⟩ := compile_eq_ok_iff.mp compiled
  have listed : "query-tool_f" ∈ tools.map (·.name) := by
    rw [map_name_tools ok]
    exact mem_toolNames_iff_rootField.mpr ⟨_, reached⟩
  exact ⟨schema, tools, operation, field, inner, accepted, ok, List.mem_map.mp listed, compiled,
    text, declared, named, .here own included same, needed⟩

end Schema

end GraphQL

end Toolsmith

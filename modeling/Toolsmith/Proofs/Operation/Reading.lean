import Toolsmith.Proofs.GraphQL.Schema.Names
import Toolsmith.Proofs.Operation.Outcomes
import Toolsmith.Proofs.Operation.Text
import Toolsmith.Proofs.Selection.Tree

/-!
What a call says is what its operation says. A schema gives names to its fields, so whatever is
compiled can be read, and reading gives back the field, the arguments and the selection.
-/

set_option autoImplicit false

namespace Toolsmith

open GraphQL (Field)

/-! Selections from a schema. -/

namespace GraphQL.Schema

variable {schema : Schema}

theorem wellFormed_selectFields (named : schema.IsNamed) {inside : Field → Option Selection}
    (nested : ∀ field selection, field.IsNamed → inside field = some selection →
      selection.WellFormed) (typeName : String) :
    ∀ member ∈ schema.selectFields inside typeName, member.WellFormed := by
  intro member selected
  obtain ⟨field, declared, chosen⟩ := List.mem_filterMap.mp selected
  have valid : field.IsNamed := by
    cases found : schema.fields? typeName with
    | none => simp [found] at declared
    | some fields => exact named.fields? found field (by simpa [found] using declared)
  unfold selectField at chosen
  split at chosen
  · contradiction
  · split at chosen
    · obtain rfl := Option.some.inj chosen
      exact .leaf valid.1
    · split at chosen
      · exact nested field member valid chosen
      · contradiction

/-- Whatever the policy, a selection holds names only, and no braces without a field in them. -/
theorem wellFormed_selectWithin (named : schema.IsNamed) (policy : SelectionPolicy) (levels : Nat)
    (typeName : String) : ∀ member ∈ schema.selectWithin policy levels typeName,
      member.WellFormed := by
  induction levels generalizing typeName with
  | zero =>
      rw [selectWithin]
      exact wellFormed_selectFields named (fun _ _ _ expanded => by simp at expanded) typeName
  | succ levels inductionHypothesis =>
      rw [selectWithin]
      refine wellFormed_selectFields named (fun field selection valid expanded => ?_) typeName
      split at expanded
      · unfold Selection.nest? at expanded
        split at expanded
        · contradiction
        · rename_i nonempty
          obtain rfl := Option.some.inj expanded
          exact .nested valid.1 (by simpa using nonempty)
            (inductionHypothesis field.type.typeName)
      · contradiction

theorem wellFormed_selection (named : schema.IsNamed) (policy : SelectionPolicy) (depth : Int)
    (type : TypeRef) : ∀ member ∈ schema.selection policy depth type, member.WellFormed :=
  wellFormed_selectWithin named policy _ type.typeName

end GraphQL.Schema

/-! Operations from a schema. -/

namespace Selection

theorem allPlain_eq_nil_iff {members : List Selection} : allPlain members = [] ↔ members = [] := by
  cases members with
  | nil => simp [allPlain]
  | cons => simp [allPlain]

end Selection

theorem FieldsDenote.eq_nil_iff {written : List (String × GraphQL.Executable.Value)}
    {entries : List (Key × Value)} (denotes : FieldsDenote written entries) :
    written = [] ↔ entries = [] := by
  cases denotes with
  | nil => simp
  | cons => simp

namespace GraphQL.Schema

variable {schema : Schema}

/-- What a call is compiled to, in the parts that the name and the arguments stand for. -/
theorem parts_of_compile {policy : SelectionPolicy} {call : Call} {operation : Operation}
    (compiled : schema.compile policy call = .ok operation) :
    ∃ field,
      (schema.rootFields operation.kind).find? (·.name = field.name) = some field ∧
      ToolName.split? call.name = some (operation.kind.label, field.name) ∧
      operation.field = field.name ∧
      call.arguments.encode = .ok operation.arguments ∧
      operation.selection = schema.selection policy 0 field.type := by
  obtain ⟨kind, field, encoded, reached, ok, rfl⟩ := compile_eq_ok_iff.mp compiled
  have sort := nameSort_rootField schema call.name
  rw [reached] at sort
  cases sort with
  | known parted found => exact ⟨field, found, parted, rfl, ok, rfl⟩

theorem wellFormed_compile (named : schema.IsNamed) {policy : SelectionPolicy} {call : Call}
    {operation : Operation} (compiled : schema.compile policy call = .ok operation) :
    operation.WellFormed := by
  obtain ⟨field, found, _, fieldName, encoded, selection⟩ := parts_of_compile compiled
  obtain ⟨names, values, _⟩ := Value.fieldsDenote_of_encodeEntries encoded
  have valid := named.rootFields field (List.mem_of_find?_eq_some found)
  refine ⟨?_, names, values, ?_⟩
  · rw [fieldName]
    exact valid.1
  · rw [selection]
    exact wellFormed_selection named policy 0 field.type

/-- The text of a compiled call is read as one operation without a name: of the kind that the name
of the call starts with, and with one plain field, the one that the rest of the name leads to. Its
arguments denote those of the call, and it is selected what the schema selects on its type. -/
theorem read?_compile {source : String} (accepted : Schema.ofSource source = .ok schema)
    {policy : SelectionPolicy} {call : Call} {operation : Operation}
    (compiled : schema.compile policy call = .ok operation) :
    ∃ (kind : OperationKind) (field : Field) (arguments : List (String × Executable.Value))
      (selections : List Executable.Selection),
      call.name.toList = kind.label.toList ++ '_' :: field.name.toList ∧
      '_' ∉ kind.label.toList ∧
      (schema.rootFields kind).find? (·.name = field.name) = some field ∧
      Executable.read? operation.text =
        some [.operation kind.keyword none [] [] [.field none field.name arguments [] selections]] ∧
      FieldsDenote arguments call.arguments ∧
      (arguments = [] ↔ call.arguments = []) ∧
      (selections = [] ↔ Selection.writeSet (schema.selection policy 0 field.type) = []) ∧
      (selections ≠ [] →
        Executable.readSelectionSet?
            (String.ofList (Selection.writeSet (schema.selection policy 0 field.type))) =
          some selections) := by
  have named := isNamed_ofSource accepted
  obtain ⟨field, found, parted, fieldName, encoded, selection⟩ := parts_of_compile compiled
  obtain ⟨written, first⟩ := ToolName.split?_eq_some_iff.mp parted
  obtain ⟨_, _, denotes⟩ := Value.fieldsDenote_of_encodeEntries encoded
  have read := Operation.read?_text (wellFormed_compile named compiled)
  rw [fieldName, selection] at read
  refine ⟨operation.kind, field, _, _, written, first, found, read, denotes, ?_, ?_, ?_⟩
  · exact denotes.eq_nil_iff
  · rw [Selection.allPlain_eq_nil_iff, Selection.writeSet_eq_nil_iff]
  · intro present
    exact Selection.readSelectionSet?_writeSet (mt Selection.allPlain_eq_nil_iff.mpr present)
      (wellFormed_selection named policy 0 field.type)

theorem read?_compile_sample :
    ∃ schema operation,
      Schema.ofSource
          "input I { at: [Int!] } type N { id: ID n: N } type Query { _f(x: I, s: String): N }" =
        .ok schema ∧
      schema.compile .standard
          ⟨"query-tool__f",
            [(.str "x", .map [(.str "at", .tuple [.int (-7), .null])]), (.str "s", .str "\"\n")]⟩ =
        .ok operation ∧
      ∃ (kind : OperationKind) (field : Field) (arguments : List (String × Executable.Value))
        (selections : List Executable.Selection),
        Executable.read? operation.text =
          some [.operation kind.keyword none [] []
            [.field none field.name arguments [] selections]] ∧
        FieldsDenote arguments
          [(.str "x", .map [(.str "at", .tuple [.int (-7), .null])]), (.str "s", .str "\"\n")] := by
  obtain ⟨schema, accepted, checked⟩ := Except.exists_eq_ok_of_any
    (Schema.ofSource
      "input I { at: [Int!] } type N { id: ID n: N } type Query { _f(x: I, s: String): N }")
    (fun schema =>
      (schema.compile .standard
        ⟨"query-tool__f",
          [(.str "x", .map [(.str "at", .tuple [.int (-7), .null])]),
            (.str "s", .str "\"\n")]⟩).toOption.any fun _ => true)
    (by decide +kernel)
  obtain ⟨operation, compiled, -⟩ := Except.exists_eq_ok_of_any _ _ checked
  obtain ⟨kind, field, arguments, selections, _, _, _, read, denotes, _⟩ :=
    read?_compile accepted compiled
  exact ⟨schema, operation, accepted, compiled, kind, field, arguments, selections, read, denotes⟩

end GraphQL.Schema

end Toolsmith

import Toolsmith.Proofs.Operation.Outcomes
import Toolsmith.Proofs.Selection.Loosening
import Toolsmith.Proofs.Settings.Entries

/-!
Looser settings lose nothing. What a call is refused for does not depend on the settings, and
neither does anything in front of the selection. Of the entries in the environment only the set
counts.
-/

set_option autoImplicit false

namespace Toolsmith

/-! The entries behind the settings. -/

namespace Settings

/-- An environment whose entries are all in another one gives a policy that is as loose, if it
allows as many levels. -/
theorem loosens_policy {strictEnvironment looseEnvironment : Environment} {strict loose : Settings}
    (strictOk : ofEnvironment strictEnvironment = .ok strict)
    (looseOk : ofEnvironment looseEnvironment = .ok loose)
    (depth : strict.policy.maxDepth ≤ loose.policy.maxDepth)
    (excluded : excludedEntries looseEnvironment ⊆ excludedEntries strictEnvironment)
    (suffixes : suffixesOf looseEnvironment ⊆ suffixesOf strictEnvironment) :
    loose.policy.Loosens strict.policy := by
  obtain ⟨strictSuffixes, strictExcluded⟩ := policy_of_ofEnvironment strictOk
  obtain ⟨looseSuffixes, looseExcluded⟩ := policy_of_ofEnvironment looseOk
  constructor
  · exact depth
  · rw [looseSuffixes, strictSuffixes]
    exact suffixes
  · rw [looseExcluded, strictExcluded]
    intro entry member
    exact mem_excludedOf.mpr (excluded (mem_excludedOf.mp member))

end Settings

/-! What stands in front of a selection. -/

namespace Operation

/-- An operation up to and including its arguments. -/
def opening (operation : Operation) : List Char :=
  operation.kind.keyword.toList ++ ' ' :: '{' :: ' ' ::
    (operation.field.toList ++ GraphQL.writeArguments operation.arguments)

theorem opening_isPrefix (operation : Operation) : operation.opening <+: operation.text.toList := by
  simp only [opening, text, writeField, String.toList_ofList]
  split <;> simp [List.append_assoc]

end Operation

namespace GraphQL.Schema

variable {schema : Schema}

/-- The policy has a part in the selection and in nothing else. -/
theorem compile_cases (schema : Schema) (call : Call) :
    (∃ error, ∀ policy, schema.compile policy call = .error error) ∨
      ∃ kind arguments, ∃ field : Field, ∀ policy, schema.compile policy call = .ok
        { kind
          field := field.name
          arguments
          selection := schema.selection policy 0 field.type } := by
  obtain ⟨name, given⟩ := call
  cases reached : schema.rootField name with
  | error error => exact .inl ⟨error, fun _ => compile_of_rootField_error reached⟩
  | ok found =>
      cases encoded : given.encode with
      | error fault =>
          exact .inl ⟨.argument fault, fun _ => compile_of_encode_error reached encoded⟩
      | ok arguments =>
          obtain ⟨kind, field⟩ := found
          refine .inr ⟨kind, arguments, field, fun _ => ?_⟩
          exact compile_eq_ok_iff.mpr ⟨kind, field, arguments, reached, encoded, rfl⟩

theorem compile_congr {policy other : SelectionPolicy} (looser : policy.Loosens other)
    (stricter : other.Loosens policy) (call : Call) :
    schema.compile other call = schema.compile policy call := by
  obtain ⟨error, refused⟩ | ⟨kind, arguments, field, compiled⟩ := schema.compile_cases call
  · rw [refused, refused]
  · rw [compiled, compiled, selection_congr (looser.allowsNested_eq stricter)]

/-- Two environments, the second as loose as the first: a call is refused under both for the same
reason, or compiled under both. Then the operations differ in their selections only, all fields that
the first has are fields of the second in the same order, and something stays selected if something
was. The same depth and the same sets of entries give the same. -/
theorem compile_of_looser_settings (schema : Schema) (call : Call)
    {strictEnvironment looseEnvironment : Environment} {strict loose : Settings}
    (strictOk : Settings.ofEnvironment strictEnvironment = .ok strict)
    (looseOk : Settings.ofEnvironment looseEnvironment = .ok loose)
    (depth : strict.policy.maxDepth ≤ loose.policy.maxDepth)
    (excluded :
      Settings.excludedEntries looseEnvironment ⊆ Settings.excludedEntries strictEnvironment)
    (suffixes : Settings.suffixesOf looseEnvironment ⊆ Settings.suffixesOf strictEnvironment) :
    ((∃ error, schema.compile strict.policy call = .error error ∧
          schema.compile loose.policy call = .error error) ∨
        ∃ few many, schema.compile strict.policy call = .ok few ∧
          schema.compile loose.policy call = .ok many ∧
          few.kind = many.kind ∧ few.field = many.field ∧ few.arguments = many.arguments ∧
          few.opening = many.opening ∧
          few.opening <+: few.text.toList ∧ many.opening <+: many.text.toList ∧
          (Selection.allPaths few.selection).Sublist (Selection.allPaths many.selection) ∧
          (Selection.allVisits few.selection).Sublist (Selection.allVisits many.selection) ∧
          (few.selection ≠ [] → many.selection ≠ [])) ∧
      (strict.policy.maxDepth = loose.policy.maxDepth →
        Settings.excludedEntries strictEnvironment ⊆ Settings.excludedEntries looseEnvironment →
        Settings.suffixesOf strictEnvironment ⊆ Settings.suffixesOf looseEnvironment →
        schema.compile strict.policy call = schema.compile loose.policy call) := by
  have looser := Settings.loosens_policy strictOk looseOk depth excluded suffixes
  constructor
  · obtain ⟨error, refused⟩ | ⟨kind, arguments, field, compiled⟩ := schema.compile_cases call
    · exact .inl ⟨error, refused strict.policy, refused loose.policy⟩
    · have within := within_selection schema looser 0 field.type
      refine .inr ⟨_, _, compiled strict.policy, compiled loose.policy, rfl, rfl, rfl, rfl, ?_⟩
      exact ⟨Operation.opening_isPrefix _, Operation.opening_isPrefix _, within.allPaths_sublist,
        within.allVisits_sublist, within.ne_nil⟩
  · intro sameDepth excludedBack suffixesBack
    have stricter :=
      Settings.loosens_policy looseOk strictOk sameDepth.ge excludedBack suffixesBack
    exact compile_congr looser stricter call

/-- An object that was left out because nothing was left inside it comes back, and the entries are
not written alike. -/
theorem compile_of_looser_settings_sample :
    ∃ schema strict loose few many,
      Schema.ofSource "type Query { f(n: Int): T } type T { t: U id: ID u: U } type U { t: T }" =
          .ok schema ∧
        Settings.ofEnvironment
            [("GQLBRIDGE_EXCLUDED_FIELDS", " u,,id , u"), ("GQLBRIDGE_SELECTION_DEPTH", "1")] =
          .ok strict ∧
        Settings.ofEnvironment
            [("GQLBRIDGE_SELECTION_DEPTH", "3"), ("GQLBRIDGE_EXCLUDED_FIELDS", "u")] =
          .ok loose ∧
        schema.compile strict.policy ⟨"query-tool_f", [(.str "n", .int 1)]⟩ = .ok few ∧
        schema.compile loose.policy ⟨"query-tool_f", [(.str "n", .int 1)]⟩ = .ok many ∧
        (Selection.allPaths few.selection).Sublist (Selection.allPaths many.selection) := by
  obtain ⟨schema, accepted, reached⟩ := Except.exists_eq_ok_of_any
    (Schema.ofSource "type Query { f(n: Int): T } type T { t: U id: ID u: U } type U { t: T }")
    (fun schema => (schema.compile .standard
      ⟨"query-tool_f", [(.str "n", .int 1)]⟩).toOption.any fun _ => true)
    (by decide +kernel)
  obtain ⟨strict, strictOk, strictChecked⟩ := Except.exists_eq_ok_of_any
    (Settings.ofEnvironment
      [("GQLBRIDGE_EXCLUDED_FIELDS", " u,,id , u"), ("GQLBRIDGE_SELECTION_DEPTH", "1")])
    (fun strict => strict.policy.maxDepth == 1) (by decide +kernel)
  obtain ⟨loose, looseOk, looseChecked⟩ := Except.exists_eq_ok_of_any
    (Settings.ofEnvironment
      [("GQLBRIDGE_SELECTION_DEPTH", "3"), ("GQLBRIDGE_EXCLUDED_FIELDS", "u")])
    (fun loose => loose.policy.maxDepth == 3) (by decide +kernel)
  obtain ⟨operation, ok, -⟩ := Except.exists_eq_ok_of_any _ _ reached
  have strictDepth : strict.policy.maxDepth = 1 := by simpa using strictChecked
  have looseDepth : loose.policy.maxDepth = 3 := by simpa using looseChecked
  have outcome := (compile_of_looser_settings schema
    ⟨"query-tool_f", [(.str "n", .int 1)]⟩ strictOk looseOk
    (by rw [strictDepth, looseDepth]; decide) (by decide +kernel) (by decide +kernel)).1
  obtain ⟨error, refused, -⟩ | ⟨few, many, fewOk, manyOk, _, _, _, _, _, _, paths, _⟩ := outcome
  · obtain ⟨_, refusal⟩ | ⟨_, _, _, compiled⟩ :=
      schema.compile_cases ⟨"query-tool_f", [(.str "n", .int 1)]⟩
    · rw [refusal] at ok
      contradiction
    · rw [compiled] at refused
      contradiction
  · exact ⟨schema, strict, loose, few, many, accepted, strictOk, looseOk, fewOk, manyOk, paths⟩

end GraphQL.Schema

end Toolsmith

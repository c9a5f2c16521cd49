import Toolsmith.Proofs.Parameter.Conformance
import Toolsmith.Proofs.Parameter.Locality
import Toolsmith.Proofs.Selection.Paths
import Toolsmith.Proofs.Tool.Index

/-!
What a tool depends on. The parameters of a root field are made of the types that its argument types
lead to through the fields of input objects, and the selection on it of the types that its own type
leads to through the fields of objects and interfaces. Two schemas that have these types in common
have the tool and its operations in common, whatever else there is in them.
-/

set_option autoImplicit false

namespace Toolsmith

namespace GraphQL.Schema

variable {first second schema : Schema}

/-- The schemas agree on all types that a field comes to: from the types of its arguments through
input objects, and from its own type through objects and interfaces. -/
structure AgreesOn (first second : Schema) (field : Field) : Prop where
  inputs : ∀ argument ∈ field.arguments, ∀ name,
    first.Reaches argument.type.typeName name → first.AgreesAt second name
  outputs : ∀ name, first.LeadsTo field.type.typeName name → first.AgreesAt second name

theorem AgreesAt.fields? {name : String} (agree : first.AgreesAt second name) :
    first.fields? name = second.fields? name := by
  rw [Schema.fields?, Schema.fields?, agree.kind?]

/-! Selections. -/

theorem selectField_eq_of_agree {inside insideSecond : Field → Option Selection} {field : Field}
    (agree : first.AgreesAt second field.type.typeName)
    (same : inside field = insideSecond field) :
    first.selectField inside field = second.selectField insideSecond field := by
  rw [selectField, selectField, agree.kind?, same]

/-- The selections in both schemas go the same way: the policy looks at names and at the depth
alone. -/
theorem selection_eq_of_agree {policy : SelectionPolicy} {depth : Int} {type : TypeRef}
    (agree : ∀ name, first.LeadsTo type.typeName name → first.AgreesAt second name) :
    first.selection policy depth type = second.selection policy depth type := by
  induction depth using policy.depth_induction generalizing type with
  | step depth inductionHypothesis =>
      have here : first.AgreesAt second type.typeName := agree _ .refl
      rw [selection_eq, selection_eq, selectFields, selectFields, ← here.fields?]
      apply List.filterMap_congr
      intro field member
      have declared : field ∈ first.selectableFields type := member
      obtain ⟨fields, found, included⟩ := mem_selectableFields.mp declared
      have offers : first.Offers type.typeName field.type.typeName :=
        ⟨fields, found, field, included, rfl⟩
      apply selectField_eq_of_agree (agree _ (.single offers))
      by_cases allowed : policy.allowsNested field.name depth = true
      · have below := (SelectionPolicy.allowsNested_iff.mp allowed).1
        rw [if_pos allowed, if_pos allowed, inductionHypothesis below]
        exact fun other leads => agree other (.head offers leads)
      · rw [if_neg allowed, if_neg allowed]

/-! Tools and operations. -/

/-- The tool that is made of a root field is the only one of its name. -/
theorem mem_tools_iff (once : schema.DeclaresOnce) {tools : List Tool}
    (ok : schema.tools = .ok tools) {kind : OperationKind} {field : Field}
    (declared : field ∈ schema.rootFields kind) {tool : Tool}
    (named : tool.name = ToolName.text ⟨kind, field.name⟩) :
    tool ∈ tools ↔ Tool.ofField schema kind field = .ok tool := by
  constructor
  · intro member
    exact ofField_of_mem_tools once ok member declared named
  · intro made
    obtain ⟨result, member, resultOk⟩ := exists_tool_of_mem_rootFields ok declared
    obtain rfl := Except.ok.inj (resultOk.symm.trans made)
    exact member

theorem ofField_eq_of_agreesOn {kind : OperationKind} {field : Field}
    (agrees : first.AgreesOn second field) :
    Tool.ofField first kind field = Tool.ofField second kind field := by
  rw [Tool.ofField, Tool.ofField, parameters_eq_of_agree agrees.inputs]

/-- What is left of a call once its root field is found. -/
theorem compile_of_rootField {name : String} {kind : OperationKind} {field : Field}
    (reached : schema.rootField name = .ok (kind, field)) (policy : SelectionPolicy)
    (arguments : Arguments) :
    schema.compile policy ⟨name, arguments⟩ =
      arguments.encode.mapError .argument >>= fun encoded =>
        .ok ⟨kind, field.name, encoded, schema.selection policy 0 field.type⟩ := by
  rw [compile_eq, reached]
  rfl

theorem mem_rootFields_of_rootField {name : String} {kind : OperationKind} {field : Field}
    (reached : schema.rootField name = .ok (kind, field)) : field ∈ schema.rootFields kind := by
  have sort := nameSort_rootField schema name
  rw [reached] at sort
  cases sort with
  | known _ found => exact List.mem_of_find?_eq_some found

theorem compile_eq_of_agreesOn (once : first.DeclaresOnce) (alsoOnce : second.DeclaresOnce)
    {kind : OperationKind} {field : Field} (declared : field ∈ first.rootFields kind)
    (alsoDeclared : field ∈ second.rootFields kind) (agrees : first.AgreesOn second field)
    (policy : SelectionPolicy) (arguments : Arguments) :
    first.compile policy ⟨ToolName.text ⟨kind, field.name⟩, arguments⟩ =
      second.compile policy ⟨ToolName.text ⟨kind, field.name⟩, arguments⟩ := by
  rw [compile_of_rootField (rootField_of_mem once declared),
    compile_of_rootField (rootField_of_mem alsoOnce alsoDeclared),
    selection_eq_of_agree agrees.outputs]

theorem toolOf_eq_of_agreesOn {kind : OperationKind} {field : Field}
    (sameSort : first.HasInputRoot kind ↔ second.HasInputRoot kind)
    (agrees : first.AgreesOn second field) :
    first.toolOf kind field = second.toolOf kind field := by
  by_cases inputRoot : first.HasInputRoot kind
  · rw [toolOf_of_hasInputRoot inputRoot, toolOf_of_hasInputRoot (sameSort.mp inputRoot)]
  · rw [toolOf_of_not_hasInputRoot inputRoot,
      toolOf_of_not_hasInputRoot (mt sameSort.mpr inputRoot), ofField_eq_of_agreesOn agrees]

/-- A root field that two accepted schemas declare alike, and that comes to the same types in both,
has the same tool in both and the same operations, for all policies and arguments; other root fields
and other types have no say in it. There is no tool of a field of an input object, so the two roots
are to be input objects both or neither. There are tools in either schema unless a root type has no
fields or fields that take no arguments, or an argument of one of its root fields leads to an enum
without usable values. -/
theorem tool_of_agreesOn {firstSource secondSource : String}
    (accepted : ofSource firstSource = .ok first)
    (alsoAccepted : ofSource secondSource = .ok second)
    {kind : OperationKind} {field : Field} (declared : field ∈ first.rootFields kind)
    (alsoDeclared : field ∈ second.rootFields kind) (agrees : first.AgreesOn second field) :
    ((first.HasInputRoot kind ↔ second.HasInputRoot kind) →
        first.toolOf kind field = second.toolOf kind field) ∧
      (∀ firstTools secondTools, first.tools = .ok firstTools → second.tools = .ok secondTools →
        ∃ tool, tool.name = ToolName.text ⟨kind, field.name⟩ ∧
          first.toolOf kind field = .ok tool ∧ second.toolOf kind field = .ok tool ∧
          ∀ other, other.name = ToolName.text ⟨kind, field.name⟩ →
            (other ∈ firstTools ↔ other = tool) ∧ (other ∈ secondTools ↔ other = tool)) ∧
      ((∃ tools, first.tools = .ok tools) ↔ first.HasCallableRoots ∧ first.HasUsableArguments) ∧
      ((∃ tools, second.tools = .ok tools) ↔
        second.HasCallableRoots ∧ second.HasUsableArguments) ∧
      ∀ policy arguments,
        first.compile policy ⟨ToolName.text ⟨kind, field.name⟩, arguments⟩ =
          second.compile policy ⟨ToolName.text ⟨kind, field.name⟩, arguments⟩ := by
  have once := declaresOnce_ofSource accepted
  have alsoOnce := declaresOnce_ofSource alsoAccepted
  refine ⟨fun sameSort => toolOf_eq_of_agreesOn sameSort agrees, ?_, exists_tools_iff,
    exists_tools_iff, compile_eq_of_agreesOn once alsoOnce declared alsoDeclared agrees⟩
  intro firstTools secondTools ok alsoOk
  have noInput := not_hasInputRoot_of_mem ok declared
  have sameSort := iff_of_false noInput (not_hasInputRoot_of_mem alsoOk alsoDeclared)
  obtain ⟨tool, _, made⟩ := exists_tool_of_mem_rootFields ok declared
  have toolOk : first.toolOf kind field = .ok tool := toolOf_eq_ok_iff.mpr ⟨noInput, made⟩
  refine ⟨tool, (Tool.ofField_eq_ok_iff.mp made).1, toolOk,
    toolOf_eq_of_agreesOn sameSort agrees ▸ toolOk, fun other named => ?_⟩
  rw [mem_tools_iff once ok declared named, mem_tools_iff alsoOnce alsoOk alsoDeclared named,
    ← ofField_eq_of_agreesOn agrees, made, Except.ok.injEq, eq_comm, and_self]

/-! Schemas that agree on all their root fields. -/

/-- Both schemas have the same root fields and agree on each of them. -/
structure AgreesOnRoots (first second : Schema) : Prop where
  roots : ∀ kind, first.root? kind = second.root? kind
  rootTypes : ∀ kind, first.rootType? kind = second.rootType? kind
  fields : ∀ kind, ∀ field ∈ first.rootFields kind, first.AgreesOn second field

theorem AgreesOnRoots.rootFields? (agrees : first.AgreesOnRoots second) (kind : OperationKind) :
    first.rootFields? kind = second.rootFields? kind := by
  rw [Schema.rootFields?, Schema.rootFields?, agrees.rootTypes]

theorem AgreesOnRoots.toolsOf (agrees : first.AgreesOnRoots second) (kind : OperationKind) :
    first.toolsOf kind = second.toolsOf kind := by
  have sameSort : first.HasInputRoot kind ↔ second.HasInputRoot kind := by
    rw [HasInputRoot, HasInputRoot, agrees.rootTypes]
  rw [Schema.toolsOf, Schema.toolsOf, ← agrees.rootFields? kind]
  cases offered : first.rootFields? kind with
  | none => rfl
  | some fields =>
      apply Except.mapM_congr
      intro field member
      apply toolOf_eq_of_agreesOn sameSort (agrees.fields kind field _)
      rwa [Schema.rootFields, offered]

theorem AgreesOnRoots.tools (agrees : first.AgreesOnRoots second) : first.tools = second.tools := by
  rw [Schema.tools, Schema.tools, agrees.toolsOf, agrees.toolsOf]

theorem AgreesOnRoots.rootField (agrees : first.AgreesOnRoots second) (name : String) :
    first.rootField name = second.rootField name := by
  simp only [Schema.rootField, agrees.roots, agrees.rootFields?]

theorem AgreesOnRoots.compile (agrees : first.AgreesOnRoots second) (policy : SelectionPolicy)
    (call : Call) : first.compile policy call = second.compile policy call := by
  obtain ⟨name, arguments⟩ := call
  have same := agrees.rootField name
  cases reached : first.rootField name with
  | error fault =>
      rw [compile_of_rootField_error reached, compile_of_rootField_error (same ▸ reached)]
  | ok found =>
      obtain ⟨kind, field⟩ := found
      have declared := mem_rootFields_of_rootField reached
      rw [compile_of_rootField reached, compile_of_rootField (same ▸ reached),
        selection_eq_of_agree (agrees.fields kind field declared).outputs]

/-! What a field depends on, told from a list of names. -/

theorem Offers.refers {holder held : String} (offers : schema.Offers holder held) :
    schema.Refers holder held := by
  obtain ⟨fields, found, field, member, rfl⟩ := offers
  exact refers_of_fields? found member List.mem_cons_self

theorem dependsOn_of_leadsTo {source target : String} (leads : schema.LeadsTo source target) :
    schema.DependsOn source target :=
  Relation.ReflTransGen.mono (fun _ _ => Offers.refers) _ _ leads

theorem ClosesOver.agreesOn {names : List String} (closes : first.ClosesOver names) {field : Field}
    (included : ∀ name ∈ field.references, name ∈ names)
    (agree : ∀ name ∈ names, first.AgreesAt second name) : first.AgreesOn second field := by
  constructor
  · intro argument member name reaches
    have source : argument.type.typeName ∈ field.references :=
      List.mem_cons_of_mem _ (List.mem_map.mpr ⟨argument, member, rfl⟩)
    exact agree name (closes.mem_of_dependsOn (included _ source) (dependsOn_of_reaches reaches))
  · intro name leads
    have source : field.type.typeName ∈ field.references := List.mem_cons_self
    exact agree name (closes.mem_of_dependsOn (included _ source) (dependsOn_of_leadsTo leads))

/-- Another document has other root fields before the field, other types, and the field itself in an
extension of its root. -/
theorem tool_of_agreesOn_sample :
    ∃ first second field firstTools secondTools tool,
      ofSource
          ("input I { inner: [I!], kind: E } enum E { A } type T { id: ID t: T } " ++
            "type Query { f(x: I!): T }") = .ok first ∧
        ofSource
            ("type Mutation { f(j: J): Query } extend type Query { f(x: I!): T } " ++
              "input J { i: I } type Query { g(e: E): J } type T { id: ID t: T } " ++
              "enum E { A } input I { inner: [I!], kind: E }") = .ok second ∧
        field ∈ first.rootFields .query ∧ field ∈ second.rootFields .query ∧
        first.AgreesOn second field ∧
        first.tools = .ok firstTools ∧ second.tools = .ok secondTools ∧
        (first.HasInputRoot .query ↔ second.HasInputRoot .query) ∧
        first.toolOf .query field = second.toolOf .query field ∧
        tool.name = ToolName.text ⟨.query, field.name⟩ ∧ tool ∈ firstTools ∧ tool ∈ secondTools ∧
        ∀ policy arguments,
          first.compile policy ⟨ToolName.text ⟨.query, field.name⟩, arguments⟩ =
            second.compile policy ⟨ToolName.text ⟨.query, field.name⟩, arguments⟩ := by
  obtain ⟨first, accepted, checked⟩ := Except.exists_eq_ok_of_any
    (ofSource
      ("input I { inner: [I!], kind: E } enum E { A } type T { id: ID t: T } " ++
        "type Query { f(x: I!): T }"))
    (fun first =>
      first.isPlain &&
      (ofSource
        ("type Mutation { f(j: J): Query } extend type Query { f(x: I!): T } " ++
          "input J { i: I } type Query { g(e: E): J } type T { id: ID t: T } " ++
          "enum E { A } input I { inner: [I!], kind: E }")).toOption.any fun second : Schema =>
        second.isPlain &&
        (first.rootFields .query).any fun field =>
          decide (field ∈ second.rootFields .query) &&
            decide (first.ClosesOver ["I", "E", "T", "ID"]) &&
            decide (∀ name ∈ field.references, name ∈ ["I", "E", "T", "ID"]) &&
            decide (∀ name ∈ ["I", "E", "T", "ID"], first.AgreesAt second name))
    (by decide +kernel)
  obtain ⟨plain, checked⟩ := Bool.and_eq_true_iff.mp checked
  obtain ⟨second, alsoAccepted, checked⟩ := Except.exists_eq_ok_of_any _ _ checked
  obtain ⟨alsoPlain, checked⟩ := Bool.and_eq_true_iff.mp checked
  obtain ⟨field, declared, checked⟩ := List.any_eq_true.mp checked
  simp only [Bool.and_eq_true, decide_eq_true_eq] at checked
  obtain ⟨⟨⟨alsoDeclared, closes⟩, included⟩, agree⟩ := checked
  obtain ⟨firstTools, ok⟩ := exists_tools_of_isPlain plain
  obtain ⟨secondTools, alsoOk⟩ := exists_tools_of_isPlain alsoPlain
  have agrees := closes.agreesOn included agree
  have sameSort := iff_of_false (not_hasInputRoot_of_mem ok declared)
    (not_hasInputRoot_of_mem alsoOk alsoDeclared)
  obtain ⟨same, inBoth, _, _, compiled⟩ :=
    tool_of_agreesOn accepted alsoAccepted declared alsoDeclared agrees
  obtain ⟨tool, named, -, -, only⟩ := inBoth firstTools secondTools ok alsoOk
  obtain ⟨member, alsoMember⟩ := only tool named
  exact ⟨first, second, field, firstTools, secondTools, tool, accepted, alsoAccepted, declared,
    alsoDeclared, agrees, ok, alsoOk, sameSort, same sameSort, named, member.mpr rfl,
    alsoMember.mpr rfl, compiled⟩

/-- Another root field can take the tool away all the same, if its argument leads to an enum whose
reason for deprecation is no text. -/
theorem tool_lost_to_other_field :
    ∃ first second firstTools tool field,
      ofSource "type Query { f: Int }" = .ok first ∧
        ofSource "enum E { A @deprecated(reason: 1) } type Query { f: Int g(x: E): Int }" =
          .ok second ∧
        field ∈ first.rootFields .query ∧ field ∈ second.rootFields .query ∧
        first.AgreesOn second field ∧
        first.tools = .ok firstTools ∧ tool ∈ firstTools ∧
        tool.name = ToolName.text ⟨.query, field.name⟩ ∧
        ¬ ∃ secondTools, second.tools = .ok secondTools := by
  obtain ⟨first, accepted, checked⟩ := Except.exists_eq_ok_of_any
    (ofSource "type Query { f: Int }")
    (fun first =>
      first.isPlain &&
      (ofSource
        "enum E { A @deprecated(reason: 1) } type Query { f: Int g(x: E): Int }").toOption.any
        fun second : Schema =>
          ((second.rootFields .query).any fun other =>
            other.arguments.any fun argument =>
              (second.kind? argument.type.typeName).any TypeKind.isUnusable) &&
          (first.rootFields .query).any fun field =>
            decide (field ∈ second.rootFields .query) &&
              decide (first.ClosesOver ["Int"]) &&
              decide (∀ name ∈ field.references, name ∈ ["Int"]) &&
              decide (∀ name ∈ ["Int"], first.AgreesAt second name))
    (by decide +kernel)
  obtain ⟨plain, checked⟩ := Bool.and_eq_true_iff.mp checked
  obtain ⟨second, alsoAccepted, checked⟩ := Except.exists_eq_ok_of_any _ _ checked
  obtain ⟨unusable, checked⟩ := Bool.and_eq_true_iff.mp checked
  obtain ⟨field, declared, checked⟩ := List.any_eq_true.mp checked
  simp only [Bool.and_eq_true, decide_eq_true_eq] at checked
  obtain ⟨⟨⟨alsoDeclared, closes⟩, included⟩, agree⟩ := checked
  obtain ⟨tools, ok⟩ := exists_tools_of_isPlain plain
  obtain ⟨tool, member, made⟩ := exists_tool_of_mem_rootFields ok declared
  refine ⟨first, second, tools, tool, field, accepted, alsoAccepted, declared, alsoDeclared,
    closes.agreesOn included agree, ok, member, (Tool.ofField_eq_ok_iff.mp made).1, ?_⟩
  exact fun defined => not_hasUsableArguments_of_any unusable (exists_tools_iff.mp defined).2

end GraphQL.Schema

end Toolsmith

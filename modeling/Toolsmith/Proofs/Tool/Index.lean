import Toolsmith.Proofs.GraphQL.Schema.Declarations
import Toolsmith.Proofs.Operation.Outcomes
import Toolsmith.Report

/-!
The tools as an index of the root fields. There is one tool for each root field, in the order of the
fields; its name leads back to the field, and what is counted of it is what the field declares. A
report goes by the names alone and still counts the tools of each kind.
-/

set_option autoImplicit false

namespace Toolsmith

/-- A tool's name starts with the label of its own kind and with no other label. -/
theorem ToolName.isPrefixOf_text_iff {kind : OperationKind} {name : ToolName} :
    (ToolName.text ⟨kind, ""⟩).toList.isPrefixOf name.text.toList = true ↔ name.kind = kind := by
  rw [List.isPrefixOf_iff_prefix]
  constructor
  · rintro ⟨rest, written⟩
    have parted : split? name.text = some (kind.label, String.ofList rest) := by
      apply split?_eq_some_iff.mpr
      constructor
      · rw [← written, toList_text]
        simp
      · exact delimiter_notMem_label kind
    rw [split?_text, Option.some.injEq, Prod.mk.injEq] at parted
    exact OperationKind.label_injective parted.1
  · rintro rfl
    refine ⟨name.field.toList, ?_⟩
    rw [toList_text, toList_text]
    simp

/-- A report is made of its rows and of what the names tell. -/
theorem Report.ofTools_eq {tools : List Tool} {rows : List ReportRow}
    (ok : tools.mapM rowOf = .ok rows) :
    ofTools tools =
      .ok ⟨rows, countOf .query tools, countOf .mutation tools, widthOf tools⟩ := by
  rw [ofTools, ok]
  rfl

/-! What is counted of a tool. -/

theorem Parameter.length_propertiesToJson {properties : List (String × Parameter)}
    {members : List (String × Json)} (ok : propertiesToJson properties = .ok members) :
    members.length = properties.length := by
  induction properties generalizing members with
  | nil =>
      obtain rfl := Except.ok.inj ok
      rfl
  | cons property rest inductionHypothesis =>
      simp only [propertiesToJson, Except.bind_eq_ok_iff] at ok
      obtain ⟨_, _, others, othersOk, collected⟩ := ok
      obtain rfl := Except.ok.inj collected
      rw [List.length_cons, List.length_cons, inductionHypothesis othersOk]

/-- An object made of declared values has a property for each and names those that are required. -/
theorem Parameter.members_of_objectOf {ofType : GraphQL.TypeRef → Parameter}
    {values : List GraphQL.InputValue} {json : Json}
    (ok : (objectOf ofType values {}).toJson = .ok json) :
    ∃ properties, properties.length = values.length ∧
      json.member? "properties" = some (.obj properties) ∧
      json.member? "required" =
        if (values.filter (·.type.isRequired)).isEmpty then none
        else some (.arr ((values.filter (·.type.isRequired)).map fun value => .str value.name)) := by
  simp only [objectOf, toJson, Except.bind_eq_ok_iff] at ok
  obtain ⟨members, propertiesOk, collected⟩ := ok
  obtain rfl := Except.ok.inj collected
  refine ⟨members, ?_, rfl, ?_⟩
  · rw [length_propertiesToJson propertiesOk, List.length_map]
  · rw [requiredMember, List.isEmpty_map]
    by_cases none : (values.filter (·.type.isRequired)).isEmpty = true
    · rw [if_pos none, if_pos none]
      rfl
    · rw [if_neg none, if_neg none, List.map_map]
      rfl

namespace Tool

/-- A tool stands for a root field: its name leads back to the field, and what is counted of it are
the arguments of the field and those among them that may not be left out. -/
structure StandsFor (schema : GraphQL.Schema) (kind : OperationKind) (field : GraphQL.Field)
    (tool : Tool) : Prop where
  read : ToolName.read tool.name = .ok ⟨kind, field.name⟩
  found : (schema.rootFields kind).find? (·.name = field.name) = some field
  parameterCount : tool.parameterCount = .ok field.arguments.length
  requiredCount : tool.requiredCount = .ok (field.arguments.countP (·.type.isRequired))

variable {schema : GraphQL.Schema} {kind : OperationKind} {field : GraphQL.Field} {tool : Tool}

theorem standsFor_ofField (made : ofField schema kind field = .ok tool)
    (found : (schema.rootFields kind).find? (·.name = field.name) = some field) :
    tool.StandsFor schema kind field := by
  obtain ⟨named, _, ok⟩ := ofField_eq_ok_iff.mp made
  obtain ⟨properties, sameCount, propertiesMember, requiredMember⟩ :=
    Parameter.members_of_objectOf ok
  constructor
  · exact ToolName.read_eq_ok_iff.mpr named
  · exact found
  · rw [parameterCount, count, propertiesMember, ← sameCount]
    rfl
  · rw [requiredCount, count, requiredMember, List.countP_eq_length_filter]
    by_cases none : (field.arguments.filter (·.type.isRequired)).isEmpty = true
    · rw [if_pos none, List.isEmpty_iff.mp none]
      rfl
    · rw [if_neg none]
      simp [Json.size?]

end Tool

namespace GraphQL.Schema

variable {schema : Schema}

theorem countP_allRootFields (kind : OperationKind) :
    schema.allRootFields.countP (·.1 = kind) = (schema.rootFields kind).length := by
  rw [allRootFields_eq, List.countP_append, List.countP_map, List.countP_map]
  cases kind with
  | query => simp [Function.comp_def]
  | mutation => simp [Function.comp_def]

/-- Where no type declares a name twice, no two tools have one name: a kind keeps the fields of its
root apart, and its label keeps the kinds apart. -/
theorem DeclaresOnce.nodup_toolNames (once : schema.DeclaresOnce) : schema.toolNames.Nodup := by
  have apart : ∀ kind : OperationKind,
      (((schema.rootFields kind).map (kind, ·)).map fun root : OperationKind × Field =>
        ToolName.text ⟨root.1, root.2.name⟩).Nodup := by
    intro kind
    have injective : Function.Injective fun name => ToolName.text ⟨kind, name⟩ := by
      intro first second same
      exact congrArg ToolName.field (ToolName.text_injective same)
    have named := (once.nodup_rootFields kind).map injective
    rw [List.map_map] at named ⊢
    exact named
  rw [toolNames, allRootFields_eq, List.map_append, List.nodup_append]
  refine ⟨apart .query, apart .mutation, ?_⟩
  intro first firstMember second secondMember same
  simp only [List.mem_map] at firstMember secondMember
  obtain ⟨_, ⟨_, _, rfl⟩, rfl⟩ := firstMember
  obtain ⟨_, ⟨_, _, rfl⟩, rfl⟩ := secondMember
  have kinds := congrArg ToolName.kind (ToolName.text_injective same)
  contradiction

/-- A report finds the tools of a kind by their names. -/
theorem countOf_tools {tools : List Tool} (ok : schema.tools = .ok tools) (kind : OperationKind) :
    Report.countOf kind tools = (schema.rootFields kind).length := by
  have byName : Report.countOf kind tools =
      (tools.map (·.name)).countP fun name =>
        (ToolName.text ⟨kind, ""⟩).toList.isPrefixOf name.toList := by
    rw [List.countP_map, Report.countOf, Function.comp_def]
  rw [byName, map_name_tools ok, toolNames, List.countP_map, ← countP_allRootFields]
  apply List.countP_congr
  rintro ⟨own, field⟩ _
  simp only [Function.comp_apply, ToolName.isPrefixOf_text_iff, decide_eq_true_eq]

theorem standsFor_tools (once : schema.DeclaresOnce) {tools : List Tool}
    (ok : schema.tools = .ok tools) :
    List.Forall₂ (fun root tool => Tool.StandsFor schema root.1 root.2 tool)
      schema.allRootFields tools := by
  have made := Except.mapM_eq_ok_iff.mp (tools_eq_ok_iff.mp ok).2
  apply List.forall₂_iff_get.mpr
  obtain ⟨sameLength, each⟩ := List.forall₂_iff_get.mp made
  refine ⟨sameLength, fun i first second => ?_⟩
  apply Tool.standsFor_ofField (each i first second)
  exact once.find?_rootFields (mem_allRootFields.mp (List.get_mem _ _))

/-- Where no type declares a name twice, a tool with the name of a root field is made of it. -/
theorem ofField_of_mem_tools (once : schema.DeclaresOnce) {tools : List Tool}
    (ok : schema.tools = .ok tools) {tool : Tool} (member : tool ∈ tools) {kind : OperationKind}
    {field : Field} (declared : field ∈ schema.rootFields kind)
    (named : tool.name = ToolName.text ⟨kind, field.name⟩) :
    Tool.ofField schema kind field = .ok tool := by
  obtain ⟨ownKind, own, included, made⟩ := exists_rootField_of_mem_tools ok member
  rw [(Tool.ofField_eq_ok_iff.mp made).1] at named
  obtain ⟨rfl, sameName⟩ := ToolName.mk.inj (ToolName.text_injective named)
  have same := List.inj_on_of_nodup_map (once.nodup_rootFields ownKind)
    included declared sameName
  rw [← same]
  exact made

/-- Where no type declares a name twice, the name of a root field's tool leads back to the field. -/
theorem rootField_of_mem (once : schema.DeclaresOnce) {kind : OperationKind} {field : Field}
    (declared : field ∈ schema.rootFields kind) :
    schema.rootField (ToolName.text ⟨kind, field.name⟩) = .ok (kind, field) :=
  rootField_of_find? (once.find?_rootFields declared)

/-- What a report says of a root field: the name of its tool, and how many arguments it has. -/
structure ListedAs (kind : OperationKind) (field : Field) (row : ReportRow) : Prop where
  name : row.name = ToolName.text ⟨kind, field.name⟩
  parameters : row.parameters = field.arguments.length
  required : row.required = field.arguments.countP (·.type.isRequired)

theorem exists_row {kind : OperationKind} {field : Field} {tool : Tool}
    (stands : tool.StandsFor schema kind field) :
    ∃ row, Report.rowOf tool = .ok row ∧ ListedAs kind field row := by
  refine ⟨⟨tool.name, summaryOf tool.description, _, _⟩, ?_, ?_, rfl, rfl⟩
  · rw [Report.rowOf, stands.parameterCount, stands.requiredCount]
    rfl
  · exact ToolName.read_eq_ok_iff.mp stands.read

/-- What stands for root fields can be counted, and so it can be reported. -/
theorem exists_rows {roots : List (OperationKind × Field)} {tools : List Tool}
    (stand : List.Forall₂ (fun root tool => Tool.StandsFor schema root.1 root.2 tool) roots tools) :
    ∃ rows, tools.mapM Report.rowOf = .ok rows ∧
      List.Forall₂ (fun root row => ListedAs root.1 root.2 row) roots rows := by
  induction stand with
  | nil => exact ⟨[], rfl, .nil⟩
  | cons stands _ inductionHypothesis =>
      obtain ⟨row, rowOk, listed⟩ := exists_row stands
      obtain ⟨rows, rowsOk, others⟩ := inductionHypothesis
      refine ⟨row :: rows, ?_, .cons listed others⟩
      rw [List.mapM_cons, rowOk, rowsOk]
      rfl

/-- The fields of a root that a document defines are those that the document declares for it. -/
theorem rootFields_of_document {document : Document} {kind : OperationKind} {root : String}
    {fields : List Field} (rooted : document.schema.root? kind = some root)
    (declared : document.schema.fields? root = some fields) :
    document.schema.rootFields kind = fields ∧
      (root ∉ BuiltIn.typeNames → fields.map (·.name) = document.fieldNamesOf root) := by
  constructor
  · obtain ⟨type, typed, own⟩ := Option.bind_eq_some_iff.mp declared
    have selectable := TypeKind.rootFields?_eq_some_iff.mpr (.inl own)
    simp [rootFields, rootFields?, rootType?, rooted, typed, selectable]
  · intro notBuiltIn
    exact map_name_fields?_schema notBuiltIn declared

/-- The tools of an accepted schema are an index of its root fields: one for each field, first of
the queries and then of the mutations, as the document declares them; no two have one name, and each
leads back to its field and counts its arguments. A report on them counts what there is. There are
tools unless a root type has no fields or fields that take no arguments, or an argument leads to an
enum without usable values. -/
theorem tools_index_rootFields {source : String} (accepted : ofSource source = .ok schema) :
    (∃ document, Document.read? source = some document ∧
        ∀ kind root fields, schema.root? kind = some root → schema.fields? root = some fields →
          schema.rootFields kind = fields ∧
            (root ∉ BuiltIn.typeNames → fields.map (·.name) = document.fieldNamesOf root)) ∧
      (∀ kind, schema.root? kind = none → schema.rootFields kind = []) ∧
      ((∃ tools, schema.tools = .ok tools) ↔
        schema.HasCallableRoots ∧ schema.HasUsableArguments) ∧
      ∀ tools, schema.tools = .ok tools →
        List.Forall₂ (fun root tool => Tool.StandsFor schema root.1 root.2 tool)
            ((schema.rootFields .query).map (.query, ·) ++
              (schema.rootFields .mutation).map (.mutation, ·)) tools ∧
          (tools.map (·.name)).Nodup ∧
          ∃ report, Report.ofTools tools = .ok report ∧
            List.Forall₂ (fun root row => ListedAs root.1 root.2 row)
              ((schema.rootFields .query).map (.query, ·) ++
                (schema.rootFields .mutation).map (.mutation, ·)) report.rows ∧
            report.queryCount = (schema.rootFields .query).length ∧
            report.mutationCount = (schema.rootFields .mutation).length ∧
            report.queryCount + report.mutationCount = report.rows.length ∧
            report.rows.length = tools.length := by
  have once := declaresOnce_ofSource accepted
  refine ⟨?_, ?_, exists_tools_iff, ?_⟩
  · obtain ⟨document, read, _, rfl⟩ := ofSource_eq_ok_iff.mp accepted
    exact ⟨document, read, fun _ _ _ rooted declared => rootFields_of_document rooted declared⟩
  · intro kind rootless
    simp [rootFields, rootFields?, rootType?, rootless]
  · intro tools ok
    have stand := standsFor_tools once ok
    rw [allRootFields_eq] at stand
    obtain ⟨rows, rowsOk, listed⟩ := exists_rows stand
    have report := Report.ofTools_eq rowsOk
    have distinct : (tools.map (·.name)).Nodup := by
      rw [map_name_tools ok]
      exact once.nodup_toolNames
    have rowCount : rows.length =
        (schema.rootFields .query).length + (schema.rootFields .mutation).length := by
      rw [← listed.length_eq, List.length_append, List.length_map, List.length_map]
    refine ⟨stand, distinct, _, report, listed, countOf_tools ok .query, countOf_tools ok .mutation,
      ?_, ?_⟩
    · rw [countOf_tools ok, countOf_tools ok, rowCount]
    · rw [← listed.length_eq, stand.length_eq]

/-- Both roots may be one type, and its fields may be named like the labels of tools. -/
theorem tools_index_rootFields_sample :
    ∃ schema tools,
      Schema.ofSource
          ("schema { query: Root mutation: Root } type Root { query_f(x: [Int!]!): Int } " ++
            "extend type Root { _: Int }") = .ok schema ∧
        schema.tools = .ok tools ∧
        (tools.map (·.name)).Nodup ∧
        (schema.rootFields .query).map (·.name) = ["query_f", "_"] ∧
        ∃ report, Report.ofTools tools = .ok report ∧ report.mutationCount = 2 := by
  obtain ⟨schema, accepted, checked⟩ := Except.exists_eq_ok_of_any
    (Schema.ofSource
      ("schema { query: Root mutation: Root } type Root { query_f(x: [Int!]!): Int } " ++
        "extend type Root { _: Int }"))
    (fun schema =>
      schema.isPlain &&
        (schema.rootFields .query).map (·.name) = ["query_f", "_"] &&
        (schema.rootFields .mutation).length = 2)
    (by decide +kernel)
  simp only [Bool.and_eq_true, decide_eq_true_eq] at checked
  obtain ⟨⟨plain, queries⟩, mutations⟩ := checked
  obtain ⟨_, _, _, indexed⟩ := tools_index_rootFields accepted
  obtain ⟨tools, ok⟩ := exists_tools_of_isPlain plain
  obtain ⟨_, distinct, report, reported, _, _, mutationCount, _⟩ := indexed tools ok
  exact ⟨schema, tools, accepted, ok, distinct, queries, report, reported,
    mutationCount.trans mutations⟩

/-- An enum whose reason for deprecation is no text takes the tools of all root fields away, those
of fields without arguments too. -/
theorem rootFields_without_tools :
    ∃ schema,
      Schema.ofSource
          ("enum E { A @deprecated(reason: 1) } type Query { f: Int } " ++
            "type Mutation { g(x: [E!]!): Int }") = .ok schema ∧
        (schema.rootFields .query).map (·.name) = ["f"] ∧
        (schema.rootFields .mutation).map (·.name) = ["g"] ∧
        ¬ ∃ tools, schema.tools = .ok tools := by
  obtain ⟨schema, accepted, checked⟩ := Except.exists_eq_ok_of_any
    (Schema.ofSource
      ("enum E { A @deprecated(reason: 1) } type Query { f: Int } " ++
        "type Mutation { g(x: [E!]!): Int }"))
    (fun schema =>
      (schema.rootFields .query).map (·.name) = ["f"] &&
        (schema.rootFields .mutation).map (·.name) = ["g"] &&
        (schema.rootFields .mutation).any fun field =>
          field.arguments.any fun argument =>
            (schema.kind? argument.type.typeName).any TypeKind.isUnusable)
    (by decide +kernel)
  simp only [Bool.and_eq_true, decide_eq_true_eq] at checked
  obtain ⟨⟨queries, mutations⟩, unusable⟩ := checked
  refine ⟨schema, accepted, queries, mutations, ?_⟩
  exact fun defined => not_hasUsableArguments_of_any unusable (exists_tools_iff.mp defined).2

end GraphQL.Schema

end Toolsmith

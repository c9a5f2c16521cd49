import Toolsmith.GraphQL.Schema.OfDocument
import Toolsmith.Operation
import Toolsmith.Proofs.Parameter.Definedness
import Toolsmith.Proofs.ToolName
import Toolsmith.Proofs.Value.Encoding
import Toolsmith.Tool

/-!
What becomes of a call. The name is looked at first, from left to right, and the arguments only when
it is the name of a root field; so each refusal tells where the first fault is. The names that lead
to a field are those of the tools, whenever the schema has tools at all.
-/

set_option autoImplicit false

namespace Toolsmith

namespace GraphQL.Schema

variable {schema : Schema}

/-- The names that tools of the root fields have, in their order. -/
def toolNames (schema : Schema) : List String :=
  schema.allRootFields.map fun (kind, field) => ToolName.text ⟨kind, field.name⟩

theorem mem_allRootFields {kind : OperationKind} {field : Field} :
    (kind, field) ∈ schema.allRootFields ↔ field ∈ schema.rootFields kind := by
  simp [allRootFields, OperationKind.mem_all]

theorem isSome_root?_of_mem {kind : OperationKind} {field : Field}
    (member : field ∈ schema.rootFields kind) : (schema.root? kind).isSome := by
  obtain ⟨root, _, _, rooted, _⟩ := mem_rootFields.mp member
  rw [rooted]
  rfl

/-- A root that has no fields is there. -/
theorem isSome_root?_of_rootFields? {kind : OperationKind}
    (fieldless : schema.rootFields? kind = none) : (schema.root? kind).isSome := by
  cases found : schema.root? kind with
  | none => simp [rootFields?, rootType?, found] at fieldless
  | some root => rfl

theorem mem_toolNames {name : String} :
    name ∈ schema.toolNames ↔
      ∃ kind, ∃ field ∈ schema.rootFields kind, name = ToolName.text ⟨kind, field.name⟩ := by
  simp only [toolNames, List.mem_map, Prod.exists]
  constructor
  · rintro ⟨kind, field, member, rfl⟩
    exact ⟨kind, field, mem_allRootFields.mp member, rfl⟩
  · rintro ⟨kind, field, member, rfl⟩
    exact ⟨kind, field, mem_allRootFields.mpr member, rfl⟩

/-! The root field of a name. -/

theorem rootField_text (kind : OperationKind) (fieldName : String) :
    schema.rootField (ToolName.text ⟨kind, fieldName⟩) =
      if (schema.root? kind).isNone then
        .error (.unknownKind ⟨ToolName.text ⟨kind, fieldName⟩, some kind.label⟩)
      else
        match schema.rootFields? kind with
        | none => .error (.noFields kind)
        | some fields =>
          match fields.find? (·.name = fieldName) with
          | none => .error (.unknownField kind fieldName)
          | some field => .ok (kind, field) := by
  have read : ToolName.read (ToolName.text ⟨kind, fieldName⟩) = .ok ⟨kind, fieldName⟩ :=
    ToolName.read_eq_ok_iff.mpr rfl
  unfold rootField
  split
  · rename_i refused
    rw [read] at refused
    contradiction
  · rename_i same
    rw [read] at same
    cases same
    rfl

theorem rootField_of_find? {kind : OperationKind} {fieldName : String} {field : Field}
    (found : (schema.rootFields kind).find? (·.name = fieldName) = some field) :
    schema.rootField (ToolName.text ⟨kind, fieldName⟩) = .ok (kind, field) := by
  have member := List.mem_of_find?_eq_some found
  have rooted := isSome_root?_of_mem member
  rw [rootField_text, rootFields?_of_mem member]
  simp [Option.isNone_iff_eq_none, Option.isSome_iff_ne_none.mp rooted, found]

theorem rootField_of_unreadable {name : String} {error : UnknownKind}
    (unreadable : ToolName.read name = .error error) :
    schema.rootField name = .error (.unknownKind error) := by
  simp only [rootField, unreadable]

/-- Every name is of one of five sorts, and the sort tells what the name leads to. -/
inductive NameSort (schema : Schema) (name : String) :
    Except CallError (OperationKind × Field) → Prop
  | unparted (undelimited : ToolName.delimiter ∉ name.toList) :
      NameSort schema name (.error (.unknownKind ⟨name, none⟩))
  | unknownLabel {label field : String} (parted : ToolName.split? name = some (label, field))
      (rootless : ∀ kind : OperationKind, kind.label = label → schema.root? kind = none) :
      NameSort schema name (.error (.unknownKind ⟨name, some label⟩))
  | noFields {kind : OperationKind} {field : String}
      (parted : ToolName.split? name = some (kind.label, field))
      (fieldless : schema.rootFields? kind = none) :
      NameSort schema name (.error (.noFields kind))
  | unknownField {kind : OperationKind} {field : String}
      (parted : ToolName.split? name = some (kind.label, field))
      (rooted : (schema.root? kind).isSome) (offers : (schema.rootFields? kind).isSome)
      (undeclared : ∀ declared ∈ schema.rootFields kind, declared.name ≠ field) :
      NameSort schema name (.error (.unknownField kind field))
  | known {kind : OperationKind} {field : Field}
      (parted : ToolName.split? name = some (kind.label, field.name))
      (found : (schema.rootFields kind).find? (·.name = field.name) = some field) :
      NameSort schema name (.ok (kind, field))

theorem nameSort_rootField (schema : Schema) (name : String) :
    schema.NameSort name (schema.rootField name) := by
  have reads := ToolName.reads_read name
  cases read : ToolName.read name with
  | error error =>
      rw [rootField_of_unreadable read]
      rw [read] at reads
      cases reads with
      | undelimited absent => exact .unparted absent
      | unlabelled parted unknown =>
          exact .unknownLabel parted fun kind named => absurd named (unknown kind)
  | ok toolName =>
      obtain ⟨kind, fieldName⟩ := toolName
      obtain rfl := ToolName.read_eq_ok_iff.mp read
      have parted := ToolName.split?_text ⟨kind, fieldName⟩
      rw [rootField_text]
      cases rooted : schema.root? kind with
      | none =>
          refine .unknownLabel parted fun other named => ?_
          rw [OperationKind.label_injective named, rooted]
      | some root =>
          simp only [Option.isNone_some, Bool.false_eq_true, if_false]
          cases offered : schema.rootFields? kind with
          | none => exact .noFields parted offered
          | some fields =>
              have same : schema.rootFields kind = fields := by rw [rootFields, offered]; rfl
              dsimp only
              cases found : fields.find? (·.name = fieldName) with
              | none =>
                  refine .unknownField parted (rooted ▸ rfl) (offered ▸ rfl) ?_
                  rw [same]
                  intro declared member
                  simpa using List.find?_eq_none.mp found declared member
              | some field =>
                  have named : field.name = fieldName := by simpa using List.find?_some found
                  subst named
                  exact .known parted (same ▸ found)

theorem mem_toolNames_iff_rootField {name : String} :
    name ∈ schema.toolNames ↔ ∃ found, schema.rootField name = .ok found := by
  rw [mem_toolNames]
  constructor
  · rintro ⟨kind, field, member, rfl⟩
    obtain ⟨declared, found⟩ : ∃ declared,
        (schema.rootFields kind).find? (·.name = field.name) = some declared :=
      Option.isSome_iff_exists.mp (List.find?_isSome.mpr ⟨field, member, by simp⟩)
    exact ⟨(kind, declared), rootField_of_find? found⟩
  · rintro ⟨_, reached⟩
    have sort := nameSort_rootField schema name
    rw [reached] at sort
    cases sort with
    | @known kind field parted found =>
        exact ⟨kind, field, List.mem_of_find?_eq_some found, ToolName.eq_text_of_split? parted⟩

/-! The whole call. -/

theorem compile_eq {policy : SelectionPolicy} {name : String} {arguments : Arguments} :
    schema.compile policy ⟨name, arguments⟩ = (do
      let (kind, field) ← schema.rootField name
      let encoded ← arguments.encode.mapError .argument
      return {
        kind
        field := field.name
        arguments := encoded
        selection := schema.selection policy 0 field.type }) := rfl

/-- What is wrong with a call, and the refusal that says so. A fault of the arguments counts only
when nothing is wrong with the name. -/
inductive Refuses (schema : Schema) (name : String) (arguments : Arguments) : CallError → Prop
  | unparted (undelimited : '_' ∉ name.toList) :
      Refuses schema name arguments (.unknownKind ⟨name, none⟩)
  | unknownLabel {label field : String} (parted : name.toList = label.toList ++ '_' :: field.toList)
      (first : '_' ∉ label.toList)
      (rootless : ∀ kind : OperationKind, kind.label = label → schema.root? kind = none) :
      Refuses schema name arguments (.unknownKind ⟨name, some label⟩)
  | noFields {kind : OperationKind} {field : String}
      (parted : name.toList = kind.label.toList ++ '_' :: field.toList)
      (fieldless : schema.rootFields? kind = none) :
      Refuses schema name arguments (.noFields kind)
  | unknownField {kind : OperationKind} {field : String}
      (parted : name.toList = kind.label.toList ++ '_' :: field.toList)
      (rooted : (schema.root? kind).isSome) (offers : (schema.rootFields? kind).isSome)
      (undeclared : ∀ declared ∈ schema.rootFields kind, declared.name ≠ field) :
      Refuses schema name arguments (.unknownField kind field)
  | argument {error : EncodingError} (known : name ∈ schema.toolNames)
      (fault : arguments.encode = .error error) :
      Refuses schema name arguments (.argument error)

theorem compile_of_rootField_error {policy : SelectionPolicy} {name : String}
    {arguments : Arguments} {error : CallError} (lost : schema.rootField name = .error error) :
    schema.compile policy ⟨name, arguments⟩ = .error error := by
  rw [compile_eq, lost]
  rfl

theorem compile_of_encode_error {policy : SelectionPolicy} {name : String}
    {arguments : Arguments} {error : EncodingError} {found : OperationKind × Field}
    (reached : schema.rootField name = .ok found) (fault : arguments.encode = .error error) :
    schema.compile policy ⟨name, arguments⟩ = .error (.argument error) := by
  rw [compile_eq, reached, fault]
  rfl

theorem compile_eq_ok_iff {policy : SelectionPolicy} {name : String} {arguments : Arguments}
    {operation : Operation} :
    schema.compile policy ⟨name, arguments⟩ = .ok operation ↔
      ∃ kind field encoded, schema.rootField name = .ok (kind, field) ∧
        arguments.encode = .ok encoded ∧
        operation =
          { kind
            field := field.name
            arguments := encoded
            selection := schema.selection policy 0 field.type } := by
  rw [compile_eq]
  simp only [Except.bind_eq_ok_iff, Except.mapError_eq_ok_iff, Prod.exists]
  constructor
  · rintro ⟨kind, field, reached, encoded, ok, collected⟩
    exact ⟨kind, field, encoded, reached, ok, (Except.ok.inj collected).symm⟩
  · rintro ⟨kind, field, encoded, reached, ok, rfl⟩
    exact ⟨kind, field, reached, encoded, ok, rfl⟩

theorem refuses_of_compile_error {policy : SelectionPolicy} {name : String}
    {arguments : Arguments} {error : CallError}
    (refused : schema.compile policy ⟨name, arguments⟩ = .error error) :
    schema.Refuses name arguments error := by
  have sort := nameSort_rootField schema name
  cases reached : schema.rootField name with
  | error fault =>
      rw [compile_of_rootField_error reached] at refused
      obtain rfl := Except.error.inj refused
      rw [reached] at sort
      cases sort with
      | unparted undelimited => exact .unparted undelimited
      | unknownLabel parted rootless =>
          obtain ⟨written, first⟩ := ToolName.split?_eq_some_iff.mp parted
          exact .unknownLabel written first rootless
      | noFields parted fieldless =>
          exact .noFields (ToolName.split?_eq_some_iff.mp parted).1 fieldless
      | unknownField parted rooted offers undeclared =>
          exact .unknownField (ToolName.split?_eq_some_iff.mp parted).1 rooted offers undeclared
  | ok found =>
      cases encoded : arguments.encode with
      | error fault =>
          rw [compile_of_encode_error reached encoded] at refused
          obtain rfl := Except.error.inj refused
          exact .argument (mem_toolNames_iff_rootField.mpr ⟨found, reached⟩) encoded
      | ok fields =>
          obtain ⟨kind, field⟩ := found
          have ok : ∃ operation, schema.compile policy ⟨name, arguments⟩ = .ok operation :=
            ⟨_, compile_eq_ok_iff.mpr ⟨kind, field, fields, reached, encoded, rfl⟩⟩
          obtain ⟨operation, ok⟩ := ok
          rw [ok] at refused
          contradiction

theorem compile_error_of_refuses {policy : SelectionPolicy} {name : String}
    {arguments : Arguments} {error : CallError} (refuses : schema.Refuses name arguments error) :
    schema.compile policy ⟨name, arguments⟩ = .error error := by
  cases refuses with
  | unparted undelimited =>
      have unreadable := ToolName.read_of_reads (.undelimited undelimited)
      exact compile_of_rootField_error (rootField_of_unreadable unreadable)
  | @unknownLabel label field written first rootless =>
      have parted := ToolName.split?_eq_some_iff.mpr ⟨written, first⟩
      cases known : OperationKind.ofLabel? label with
      | none =>
          have unknown := OperationKind.ofLabel?_eq_none_iff.mp known
          have unreadable := ToolName.read_of_reads (.unlabelled parted unknown)
          exact compile_of_rootField_error (rootField_of_unreadable unreadable)
      | some kind =>
          obtain rfl := OperationKind.ofLabel?_eq_some_iff.mp known
          apply compile_of_rootField_error
          rw [ToolName.eq_text_of_split? parted, rootField_text, rootless kind rfl]
          rfl
  | @noFields kind field written fieldless =>
      have parted := ToolName.split?_eq_some_iff.mpr ⟨written, ToolName.delimiter_notMem_label kind⟩
      have rooted := isSome_root?_of_rootFields? fieldless
      apply compile_of_rootField_error
      rw [ToolName.eq_text_of_split? parted, rootField_text, fieldless]
      simp [Option.isNone_iff_eq_none, Option.isSome_iff_ne_none.mp rooted]
  | @unknownField kind field written rooted offers undeclared =>
      have parted := ToolName.split?_eq_some_iff.mpr ⟨written, ToolName.delimiter_notMem_label kind⟩
      obtain ⟨fields, offered⟩ := Option.isSome_iff_exists.mp offers
      have missing : fields.find? (·.name = field) = none := by
        simpa [rootFields, offered] using undeclared
      apply compile_of_rootField_error
      rw [ToolName.eq_text_of_split? parted, rootField_text, offered]
      simp [Option.isNone_iff_eq_none, Option.isSome_iff_ne_none.mp rooted, missing]
  | argument known fault =>
      obtain ⟨found, reached⟩ := mem_toolNames_iff_rootField.mp known
      exact compile_of_encode_error reached fault

/-- Nothing but the name leads a call to a root without fields. -/
theorem compile_eq_noFields_iff {policy : SelectionPolicy} {name : String} {arguments : Arguments}
    {kind : OperationKind} :
    schema.compile policy ⟨name, arguments⟩ = .error (.noFields kind) ↔
      (∃ field, name = ToolName.text ⟨kind, field⟩) ∧ schema.rootFields? kind = none := by
  constructor
  · intro refused
    cases refuses_of_compile_error refused with
    | @noFields _ field written fieldless =>
        have parted :=
          ToolName.split?_eq_some_iff.mpr ⟨written, ToolName.delimiter_notMem_label kind⟩
        exact ⟨⟨field, ToolName.eq_text_of_split? parted⟩, fieldless⟩
  · rintro ⟨⟨field, rfl⟩, fieldless⟩
    exact compile_error_of_refuses (.noFields (ToolName.toList_text _) fieldless)

end GraphQL.Schema

/-! The tools. -/

namespace Tool

variable {schema : GraphQL.Schema} {kind : OperationKind} {field : GraphQL.Field} {tool : Tool}

theorem ofField_eq_ok_iff :
    ofField schema kind field = .ok tool ↔
      tool.name = ToolName.text ⟨kind, field.name⟩ ∧
        tool.description = descriptionOf kind field ∧
        (schema.parameters field.arguments).toJson = .ok tool.inputSchema := by
  unfold ofField ofParameter
  split
  · rename_i error failed
    simp [failed]
  · rename_i inputSchema made
    constructor
    · intro same
      obtain rfl := Except.ok.inj same
      exact ⟨rfl, rfl, made⟩
    · obtain ⟨name, description, ownSchema, _⟩ := tool
      rintro ⟨rfl, rfl, ok⟩
      obtain rfl := Except.ok.inj (made.symm.trans ok)
      rfl

theorem exists_ofField_iff :
    (∃ tool, ofField schema kind field = .ok tool) ↔
      (schema.parameters field.arguments).IsDefined := by
  simp only [ofField_eq_ok_iff]
  constructor
  · rintro ⟨tool, _, _, ok⟩
    exact ⟨tool.inputSchema, ok⟩
  · rintro ⟨inputSchema, ok⟩
    exact ⟨⟨_, _, inputSchema, Parameter.isObject_of_toJson ok⟩, rfl, rfl, ok⟩

end Tool

/-- The fields of a root of this kind take arguments, as those of an input object do not. -/
def GraphQL.TypeKind.IsCallable (kind : TypeKind) : Prop :=
  kind.fields?.isSome = true ∨ kind = .input []

namespace GraphQL.Schema

variable {schema : Schema}

/-- Whatever is the type of a root has fields, and fields that take arguments. An input object is no
such type unless it has no fields. -/
def HasCallableRoots (schema : Schema) : Prop :=
  ∀ kind type, schema.rootType? kind = some type → type.IsCallable

/-- The root fields of the queries come before those of the mutations. -/
theorem allRootFields_eq :
    schema.allRootFields =
      (schema.rootFields .query).map (.query, ·) ++
        (schema.rootFields .mutation).map (.mutation, ·) := by
  simp [allRootFields, OperationKind.all]

/-- The root of a kind is an input object. -/
def HasInputRoot (schema : Schema) (kind : OperationKind) : Prop :=
  ∃ fields, schema.rootType? kind = some (.input fields)

section

variable {kind : OperationKind} {field : Field} {tools : List Tool}

theorem toolOf_of_hasInputRoot (inputRoot : schema.HasInputRoot kind) :
    schema.toolOf kind field = .error (.noArguments kind field.name) := by
  obtain ⟨fields, typed⟩ := inputRoot
  rw [toolOf, typed]

theorem toolOf_of_not_hasInputRoot (noInput : ¬ schema.HasInputRoot kind) :
    schema.toolOf kind field = (Tool.ofField schema kind field).mapError .undefinedEnum := by
  unfold toolOf
  split
  · rename_i fields typed
    exact absurd ⟨fields, typed⟩ noInput
  · rfl

theorem toolOf_eq_ok_iff {tool : Tool} :
    schema.toolOf kind field = .ok tool ↔
      ¬ schema.HasInputRoot kind ∧ Tool.ofField schema kind field = .ok tool := by
  by_cases inputRoot : schema.HasInputRoot kind
  · simp [toolOf_of_hasInputRoot inputRoot, inputRoot]
  · simp [toolOf_of_not_hasInputRoot inputRoot, inputRoot, Except.mapError_eq_ok_iff]

theorem mapM_toolOf_eq_ok_iff (noInput : ¬ schema.HasInputRoot kind) {fields : List Field} :
    fields.mapM (schema.toolOf kind) = .ok tools ↔
      fields.mapM (Tool.ofField schema kind) = .ok tools := by
  simp only [Except.mapM_eq_ok_iff, toolOf_eq_ok_iff, noInput, not_false_eq_true, true_and]

theorem toolsOf_eq_ok_iff :
    schema.toolsOf kind = .ok tools ↔
      (∀ type, schema.rootType? kind = some type → type.IsCallable) ∧
        (schema.rootFields kind).mapM (Tool.ofField schema kind) = .ok tools := by
  unfold toolsOf rootFields rootFields?
  cases typed : schema.rootType? kind with
  | none => simp [pure, Except.pure]
  | some type =>
      cases type with
      | object fields =>
          have noInput : ¬ schema.HasInputRoot kind := by simp [HasInputRoot, typed]
          simp [TypeKind.IsCallable, TypeKind.rootFields?, TypeKind.fields?,
            mapM_toolOf_eq_ok_iff noInput]
      | interface fields =>
          have noInput : ¬ schema.HasInputRoot kind := by simp [HasInputRoot, typed]
          simp [TypeKind.IsCallable, TypeKind.rootFields?, TypeKind.fields?,
            mapM_toolOf_eq_ok_iff noInput]
      | input fields =>
          have inputRoot : schema.HasInputRoot kind := ⟨fields, typed⟩
          cases fields with
          | nil => simp [TypeKind.IsCallable, TypeKind.rootFields?, pure, Except.pure]
          | cons =>
              simp [TypeKind.IsCallable, TypeKind.rootFields?, TypeKind.fields?, List.mapM_cons,
                toolOf_of_hasInputRoot inputRoot, bind, Except.bind]
      | _ => simp [TypeKind.IsCallable, TypeKind.rootFields?, TypeKind.fields?]

end

/-- The tools are made one by one of all root fields, if these can be called at all. -/
theorem tools_eq_ok_iff {tools : List Tool} :
    schema.tools = .ok tools ↔
      schema.HasCallableRoots ∧
        schema.allRootFields.mapM (fun (kind, field) => Tool.ofField schema kind field) =
          .ok tools := by
  simp only [Schema.tools, Except.bind_eq_ok_iff, toolsOf_eq_ok_iff, allRootFields_eq,
    List.mapM_append, List.mapM_map]
  constructor
  · rintro ⟨queryTools, ⟨queryRoot, queriesOk⟩, mutationTools, ⟨mutationRoot, mutationsOk⟩, same⟩
    refine ⟨fun kind => ?_, queryTools, queriesOk, mutationTools, mutationsOk, ?_⟩
    · cases kind with
      | query => exact queryRoot
      | mutation => exact mutationRoot
    · exact congrArg Except.ok (Except.ok.inj same)
  · rintro ⟨roots, queryTools, queriesOk, mutationTools, mutationsOk, same⟩
    refine ⟨queryTools, ⟨roots .query, queriesOk⟩, mutationTools,
      ⟨roots .mutation, mutationsOk⟩, ?_⟩
    exact congrArg Except.ok (Except.ok.inj same)

theorem exists_tool_of_mem_rootFields {tools : List Tool} (ok : schema.tools = .ok tools)
    {kind : OperationKind} {field : Field} (declared : field ∈ schema.rootFields kind) :
    ∃ tool ∈ tools, Tool.ofField schema kind field = .ok tool := by
  have included : (kind, field) ∈ schema.allRootFields := mem_allRootFields.mpr declared
  obtain ⟨tool, member, made⟩ := Except.exists_mem_of_mapM (tools_eq_ok_iff.mp ok).2 included
  exact ⟨tool, member, made⟩

/-- Where there are tools, no root field belongs to an input object. -/
theorem not_hasInputRoot_of_mem {tools : List Tool} (ok : schema.tools = .ok tools)
    {kind : OperationKind} {field : Field} (declared : field ∈ schema.rootFields kind) :
    ¬ schema.HasInputRoot kind := by
  rintro ⟨inputs, typed⟩
  obtain selectable | empty := (tools_eq_ok_iff.mp ok).1 kind _ typed
  · simp [TypeKind.fields?] at selectable
  · obtain rfl := TypeKind.input.inj empty
    simp [rootFields, rootFields?, typed, TypeKind.rootFields?] at declared

theorem exists_rootField_of_mem_tools {tools : List Tool} (ok : schema.tools = .ok tools)
    {tool : Tool} (member : tool ∈ tools) :
    ∃ kind, ∃ field ∈ schema.rootFields kind, Tool.ofField schema kind field = .ok tool := by
  obtain ⟨⟨kind, field⟩, included, made⟩ :=
    Except.exists_of_mem_mapM (tools_eq_ok_iff.mp ok).2 member
  exact ⟨kind, field, mem_allRootFields.mp included, made⟩

theorem map_name_tools {tools : List Tool} (ok : schema.tools = .ok tools) :
    tools.map (·.name) = schema.toolNames := by
  refine Except.map_eq_map_of_mapM ?_ (tools_eq_ok_iff.mp ok).2
  rintro ⟨kind, field⟩ tool made
  exact (Tool.ofField_eq_ok_iff.mp made).1

/-- No root field takes an argument that an enum without usable values lies behind. -/
def HasUsableArguments (schema : Schema) : Prop :=
  ∀ kind, ∀ field ∈ schema.rootFields kind, ∀ argument ∈ field.arguments,
    schema.AvoidsUnusableEnums argument.type

/-- An argument whose type is an enum without usable values. -/
theorem not_hasUsableArguments_of_any {kind : OperationKind}
    (reached : (schema.rootFields kind).any (fun field =>
      field.arguments.any fun argument =>
        (schema.kind? argument.type.typeName).any TypeKind.isUnusable) = true) :
    ¬ schema.HasUsableArguments := by
  intro usable
  simp only [List.any_eq_true, Option.any_eq_true] at reached
  obtain ⟨field, fieldMember, argument, member, typeKind, found, unusable⟩ := reached
  rw [TypeKind.isUnusable_iff.mp unusable] at found
  exact usable kind field fieldMember argument member _ .refl found

theorem exists_tools_iff :
    (∃ tools, schema.tools = .ok tools) ↔ schema.HasCallableRoots ∧ schema.HasUsableArguments := by
  simp only [tools_eq_ok_iff, exists_and_left, Except.exists_mapM_eq_ok_iff,
    Tool.exists_ofField_iff, isDefined_parameters_iff, HasUsableArguments, Prod.forall,
    mem_allRootFields]

/-- No type is an enum without usable values, and the root types have fields that can be selected. -/
def isPlain (schema : Schema) : Bool :=
  schema.types.all (fun type => !type.kind.isUnusable) &&
    OperationKind.all.all fun kind => (schema.rootType? kind).all (·.fields?.isSome)

theorem exists_tools_of_isPlain (plain : schema.isPlain = true) :
    ∃ tools, schema.tools = .ok tools := by
  simp only [isPlain, Bool.and_eq_true, List.all_eq_true, Bool.not_eq_true',
    Option.all_eq_true] at plain
  obtain ⟨usable, selectable⟩ := plain
  refine exists_tools_iff.mpr ⟨fun kind type typed => ?_, fun _ _ _ argument _ => ?_⟩
  · exact .inl (selectable kind (OperationKind.mem_all kind) type typed)
  · exact avoidsUnusableEnums_of_types usable argument.type

theorem HasCallableRoots.compile_ne_noFields (callable : schema.HasCallableRoots)
    {policy : SelectionPolicy} {name : String} {arguments : Arguments} {kind : OperationKind} :
    schema.compile policy ⟨name, arguments⟩ ≠ .error (.noFields kind) := by
  intro refused
  obtain ⟨-, fieldless⟩ := compile_eq_noFields_iff.mp refused
  unfold rootFields? at fieldless
  split at fieldless
  · contradiction
  · rename_i type typed
    rcases callable kind type typed with selectable | rfl
    · obtain ⟨fields, found⟩ := Option.isSome_iff_exists.mp selectable
      rw [TypeKind.rootFields?_eq_some_iff.mpr (.inl found)] at fieldless
      contradiction
    · contradiction

/-- A call is compiled exactly when it names a tool and all its arguments have literals; any other
call is refused, for its first fault. There are tools unless a root type has no fields or fields
that take no arguments, or an argument leads to an enum without usable values; where there are none,
calls of the root fields are still compiled. -/
theorem compile_outcome (schema : Schema) (policy : SelectionPolicy) (name : String)
    (arguments : Arguments) :
    ((∃ tools, schema.tools = .ok tools) ↔
        schema.HasCallableRoots ∧ schema.HasUsableArguments) ∧
      (∀ tools, schema.tools = .ok tools →
        ((∃ operation, schema.compile policy ⟨name, arguments⟩ = .ok operation) ↔
          (∃ tool ∈ tools, tool.name = name) ∧ arguments.Encodable) ∧
        ∀ kind, schema.compile policy ⟨name, arguments⟩ ≠ .error (.noFields kind)) ∧
      ((∃ operation, schema.compile policy ⟨name, arguments⟩ = .ok operation) ↔
        name ∈ schema.toolNames ∧ arguments.Encodable) ∧
      ∀ error, schema.compile policy ⟨name, arguments⟩ = .error error ↔
        schema.Refuses name arguments error := by
  have compiled : (∃ operation, schema.compile policy ⟨name, arguments⟩ = .ok operation) ↔
      name ∈ schema.toolNames ∧ arguments.Encodable := by
    rw [mem_toolNames_iff_rootField, ← Arguments.exists_encode_iff]
    simp only [compile_eq_ok_iff]
    constructor
    · rintro ⟨_, kind, field, encoded, reached, ok, _⟩
      exact ⟨⟨(kind, field), reached⟩, ⟨encoded, ok⟩⟩
    · rintro ⟨⟨⟨kind, field⟩, reached⟩, ⟨encoded, ok⟩⟩
      exact ⟨_, kind, field, encoded, reached, ok, rfl⟩
  refine ⟨exists_tools_iff, ?_, compiled, ?_⟩
  · intro tools ok
    refine ⟨?_, fun kind refused => ?_⟩
    · rw [compiled, ← map_name_tools ok, List.mem_map]
    · exact (tools_eq_ok_iff.mp ok).1.compile_ne_noFields refused
  · intro error
    exact ⟨refuses_of_compile_error, compile_error_of_refuses⟩

theorem compile_outcome_sample :
    ∃ schema tools,
      Schema.ofSource
          ("input I { inner: [I!], kind: E = A } enum E { A } " ++
            "type Query { _f(x: I): Int } type Mutation { _f(x: E!): E }") = .ok schema ∧
        schema.tools = .ok tools ∧
        ((∃ operation,
            schema.compile .standard ⟨"mutation-tool__f", [(.str "x", .tuple [.null])]⟩ =
              .ok operation) ↔
          (∃ tool ∈ tools, tool.name = "mutation-tool__f") ∧
            Arguments.Encodable [(.str "x", .tuple [.null])]) := by
  obtain ⟨schema, accepted, plain⟩ := Except.exists_eq_ok_of_any
    (Schema.ofSource
      ("input I { inner: [I!], kind: E = A } enum E { A } " ++
        "type Query { _f(x: I): Int } type Mutation { _f(x: E!): E }"))
    isPlain (by decide +kernel)
  obtain ⟨tools, ok⟩ := exists_tools_of_isPlain plain
  exact ⟨schema, tools, accepted, ok, ((compile_outcome schema _ _ _).2.1 tools ok).1⟩

/-- The reason for the deprecation of an enum value is not looked at when a schema is read. If it is
no text, calls are compiled though there are no tools. -/
theorem compile_without_tools :
    ∃ schema operation,
      Schema.ofSource "enum E { A @deprecated(reason: 1) } type Query { f(x: E): Int }" =
          .ok schema ∧
        schema.compile .standard ⟨"query-tool_f", []⟩ = .ok operation ∧
        ¬ ∃ tools, schema.tools = .ok tools ∧ ∃ tool ∈ tools, tool.name = "query-tool_f" := by
  obtain ⟨schema, accepted, checked⟩ := Except.exists_eq_ok_of_any
    (Schema.ofSource
      "enum E { A @deprecated(reason: 1) } type Query { f(x: E): Int }")
    (fun schema =>
      ((schema.rootFields .query).any fun field =>
        field.arguments.any fun argument =>
          (schema.kind? argument.type.typeName).any TypeKind.isUnusable) &&
        (schema.compile .standard ⟨"query-tool_f", []⟩).toOption.any fun _ => true)
    (by decide +kernel)
  obtain ⟨unusable, compiled⟩ := Bool.and_eq_true_iff.mp checked
  obtain ⟨operation, ok, -⟩ := Except.exists_eq_ok_of_any _ _ compiled
  refine ⟨schema, operation, accepted, ok, ?_⟩
  rintro ⟨tools, toolsOk, _⟩
  exact not_hasUsableArguments_of_any unusable (exists_tools_iff.mp ⟨tools, toolsOk⟩).2

end GraphQL.Schema

end Toolsmith

import Toolsmith.Proofs.GraphQL.Schema.Closed
import Toolsmith.Proofs.Parameter.Names
import Toolsmith.Proofs.Tool.Locality

/-!
An accepted schema has all types that its tools and operations are made of. No name is looked up in
vain, so what is made of the schema would be the same if any name it lacks were the name of a type;
and the names it does have are all that stands as a key in the input schema of a tool.
-/

set_option autoImplicit false

namespace Toolsmith.GraphQL.Schema

variable {schema other : Schema}

/-- Another schema has the same roots and all types of this one as they are, and perhaps more. -/
structure ExtendedBy (schema other : Schema) : Prop where
  types : ∀ name definition, schema.type? name = some definition →
    other.type? name = some definition
  roots : ∀ kind, schema.root? kind = other.root? kind

theorem ExtendedBy.agreesAt (extended : schema.ExtendedBy other) {name : String}
    (resolves : schema.Resolves name) : schema.AgreesAt other name := by
  obtain ⟨definition, found⟩ := Option.isSome_iff_exists.mp resolves
  rw [AgreesAt, found, extended.types name definition found]

theorem IsClosed.resolves_of_reaches (closed : schema.IsClosed) {source target : String}
    (resolves : schema.Resolves source) (reaches : schema.Reaches source target) :
    schema.Resolves target :=
  closed.resolves_of_dependsOn resolves (dependsOn_of_reaches reaches)

theorem IsClosed.resolves_of_leadsTo (closed : schema.IsClosed) {source target : String}
    (resolves : schema.Resolves source) (leads : schema.LeadsTo source target) :
    schema.Resolves target :=
  closed.resolves_of_dependsOn resolves (dependsOn_of_leadsTo leads)

/-- The types of the root fields and of their arguments are there. -/
theorem IsClosed.resolves_of_rootFields (closed : schema.IsClosed) {kind : OperationKind}
    {field : Field} (declared : field ∈ schema.rootFields kind) :
    ∀ name ∈ field.references, schema.Resolves name := by
  intro name referred
  obtain ⟨root, type, fields, rooted, typed, found, member⟩ := mem_rootFields.mp declared
  have refers := refers_of_rootFields? typed found member referred
  exact closed.resolves_of_dependsOn (closed.roots kind root rooted) (.single refers)

/-! Schemas with more types. -/

theorem IsClosed.parameters_eq (closed : schema.IsClosed) (extended : schema.ExtendedBy other)
    {arguments : List InputValue}
    (resolve : ∀ argument ∈ arguments, schema.Resolves argument.type.typeName) :
    schema.parameters arguments = other.parameters arguments := by
  apply parameters_eq_of_agree
  intro argument member name reaches
  exact extended.agreesAt (closed.resolves_of_reaches (resolve argument member) reaches)

theorem IsClosed.selection_eq (closed : schema.IsClosed) (extended : schema.ExtendedBy other)
    {policy : SelectionPolicy} {depth : Int} {type : TypeRef}
    (resolves : schema.Resolves type.typeName) :
    schema.selection policy depth type = other.selection policy depth type := by
  apply selection_eq_of_agree
  intro name leads
  exact extended.agreesAt (closed.resolves_of_leadsTo resolves leads)

theorem IsClosed.rootType?_eq (closed : schema.IsClosed) (extended : schema.ExtendedBy other)
    (kind : OperationKind) : schema.rootType? kind = other.rootType? kind := by
  rw [rootType?, rootType?, ← extended.roots]
  cases rooted : schema.root? kind with
  | none => rfl
  | some root =>
      have agree := extended.agreesAt (closed.roots kind root rooted)
      rw [Option.bind_some, Option.bind_some, agree.kind?]

theorem IsClosed.agreesOnRoots (closed : schema.IsClosed) (extended : schema.ExtendedBy other) :
    schema.AgreesOnRoots other := by
  refine ⟨extended.roots, closed.rootType?_eq extended, fun kind field declared => ⟨?_, ?_⟩⟩
  · intro argument member name reaches
    have resolves := closed.resolves_of_rootFields declared argument.type.typeName
      (List.mem_cons_of_mem _ (List.mem_map.mpr ⟨argument, member, rfl⟩))
    exact extended.agreesAt (closed.resolves_of_reaches resolves reaches)
  · intro name leads
    have resolves := closed.resolves_of_rootFields declared _ List.mem_cons_self
    exact extended.agreesAt (closed.resolves_of_leadsTo resolves leads)

/-! Keys. -/

theorem IsClosed.hasNames_inputSchema (closed : schema.IsClosed) {tools : List Tool}
    (ok : schema.tools = .ok tools) {tool : Tool} (member : tool ∈ tools) :
    tool.inputSchema.hasNames = true := by
  obtain ⟨kind, field, declared, made⟩ := exists_rootField_of_mem_tools ok member
  obtain ⟨_, _, jsonOk⟩ := Tool.ofField_eq_ok_iff.mp made
  exact hasNames_parameters closed.named (closed.named.rootFields field declared).2 jsonOk

/-- An accepted schema is closed: names are names and are declared once, and the types that are
referred to, in the schema or elsewhere in its document, are there. So the mapper, the selection,
the tools and the operations come to types of the schema only, and would be the same in a schema
with more types. All keys in the input schema of a tool are names, at every depth. -/
theorem closed_of_accepted {source : String} (accepted : ofSource source = .ok schema) :
    schema.IsClosed ∧
      (∃ document, Document.read? source = some document ∧ document.schema = schema ∧
        (∀ name, schema.Resolves name ↔
          name ∈ BuiltIn.typeNames ∨ name ∈ document.typeDefinitions.map (·.name)) ∧
        (∀ name ∈ document.typeReferences, schema.Resolves name) ∧
        document.HasDistinctEnumValues ∧
        ∀ declaration ∈ document.typeDeclarations, declaration.IsNamed) ∧
      (∀ source, schema.Resolves source → ∀ target,
        schema.Reaches source target ∨ schema.LeadsTo source target → schema.Resolves target) ∧
      (∀ other, schema.ExtendedBy other →
        (∀ arguments : List InputValue,
          (∀ argument ∈ arguments, schema.Resolves argument.type.typeName) →
            schema.parameters arguments = other.parameters arguments) ∧
        (∀ policy depth type, schema.Resolves type.typeName →
          schema.selection policy depth type = other.selection policy depth type) ∧
        schema.tools = other.tools ∧
        ∀ policy call, schema.compile policy call = other.compile policy call) ∧
      ∀ tools, schema.tools = .ok tools → ∀ tool ∈ tools, ∀ members,
        Json.Within (.obj members) tool.inputSchema →
          ∀ member ∈ members, Key.name (.str member.1) = .ok member.1 := by
  have closed := isClosed_ofSource accepted
  refine ⟨closed, ?_, ?_, ?_, ?_⟩
  · obtain ⟨document, read, valid, rfl⟩ := ofSource_eq_ok_iff.mp accepted
    obtain ⟨_, _, _, _, enumValues, _, _, _, refers, _⟩ := valid
    exact ⟨document, read, rfl, fun _ => Document.resolves_iff,
      fun _ => Document.resolves_of_mem_typeReferences refers, enumValues,
      isNamed_typeDeclarations (isNamed_of_read? read)⟩
  · intro source resolves target comes
    rcases comes with reaches | leads
    · exact closed.resolves_of_reaches resolves reaches
    · exact closed.resolves_of_leadsTo resolves leads
  · intro other extended
    have agrees := closed.agreesOnRoots extended
    exact ⟨fun _ => closed.parameters_eq extended, fun _ _ _ => closed.selection_eq extended,
      agrees.tools, agrees.compile⟩
  · intro tools ok tool member members within inside included
    have named := Json.isName_of_within (closed.hasNames_inputSchema ok member) within
    exact Key.name_eq_ok_iff.mpr ⟨rfl, named inside included⟩

/-- Extensions stand before what they extend, an input object has itself for a field, and a default
is an object. -/
theorem closed_of_accepted_sample :
    ∃ schema tools tool,
      ofSource
          ("extend input I { inner: I = { kind: B } } extend enum E { B } input I { kind: E! } " ++
            "enum E { A } type Query { f(properties: [I] = []): Query }") = .ok schema ∧
        schema.kind? "E" = some (.enum (some ["A", "B"])) ∧ schema.IsClosed ∧
        schema.tools = .ok tools ∧ tool ∈ tools ∧
        ∀ members, Json.Within (.obj members) tool.inputSchema →
          ∀ member ∈ members, Key.name (.str member.1) = .ok member.1 := by
  obtain ⟨schema, accepted, checked⟩ := Except.exists_eq_ok_of_any
    (ofSource
      ("extend input I { inner: I = { kind: B } } extend enum E { B } input I { kind: E! } " ++
        "enum E { A } type Query { f(properties: [I] = []): Query }"))
    (fun schema =>
      schema.isPlain &&
        decide (schema.kind? "E" = some (.enum (some ["A", "B"]))) &&
        !(schema.rootFields .query).isEmpty)
    (by decide +kernel)
  simp only [Bool.and_eq_true, decide_eq_true_eq, Bool.not_eq_true'] at checked
  obtain ⟨⟨plain, values⟩, nonempty⟩ := checked
  obtain ⟨field, declared⟩ := List.exists_mem_of_ne_nil _ (List.isEmpty_eq_false_iff.mp nonempty)
  obtain ⟨tools, ok⟩ := exists_tools_of_isPlain plain
  obtain ⟨tool, member, _⟩ := exists_tool_of_mem_rootFields ok declared
  obtain ⟨closed, _, _, _, keys⟩ := closed_of_accepted accepted
  exact ⟨schema, tools, tool, accepted, values, closed, ok, member, keys tools ok tool member⟩

end Toolsmith.GraphQL.Schema

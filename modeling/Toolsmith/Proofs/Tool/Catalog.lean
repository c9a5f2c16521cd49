import Toolsmith.Catalog
import Toolsmith.Proofs.Operation.Outcomes
import Toolsmith.Proofs.Parameter.FiniteDefaults

/-!
Catalogs as JSON texts. A catalog takes numbers from nowhere but the defaults of a schema, and what
a default is written as does not make sure that it is finite: a literal out of range is infinite.
-/

set_option autoImplicit false

namespace Toolsmith

open Json.Grammar

/-- Beside the input schema a tool has only texts. -/
theorem Tool.hasFiniteNumbers_toJson {tool : Tool} :
    tool.toJson.HasFiniteNumbers ↔ tool.inputSchema.HasFiniteNumbers := by
  simp [Tool.toJson]

theorem hasFiniteNumbers_catalog {tools : List Tool} :
    (catalog tools).HasFiniteNumbers ↔ ∀ tool ∈ tools, tool.inputSchema.HasFiniteNumbers := by
  rw [catalog, Json.hasFiniteNumbers_arr, List.forall_mem_map]
  simp only [Tool.hasFiniteNumbers_toJson]

theorem isDocument_catalogText_iff {tools : List Tool} :
    IsDocument (catalogText tools).toList ↔
      ∀ tool ∈ tools, tool.inputSchema.HasFiniteNumbers := by
  have text : (catalogText tools).toList = (catalog tools).write .indented 0 ++ ['\n'] := by
    simp [catalogText, Json.indentedText]
  rw [text, isDocument_write_iff (.more (by decide) (.none []))]
  exact hasFiniteNumbers_catalog

/-- A number that is no integer, finite or not. -/
def Json.isFloat (finite : Bool) : Json → Bool
  | .float value => value.isFinite == finite
  | _ => false

theorem Json.hasFiniteNumbers_iff_of_isFloat {finite : Bool} {json : Json}
    (float : json.isFloat finite = true) : json.HasFiniteNumbers ↔ finite = true := by
  cases json with
  | float value =>
      obtain rfl := beq_iff_eq.mp float
      constructor
      · rintro ⟨⟩
        assumption
      · exact .float value
  | _ => contradiction

/-- The fields of an input object; a type of another kind has none. -/
def GraphQL.TypeKind.inputs : TypeKind → List InputValue
  | .input fields => fields
  | _ => []

namespace GraphQL.Schema

variable {schema : Schema}

/-- The numbers in the default of each argument of a root field are finite, and so are those in the
defaults of all fields that its type leads to. -/
def HasFiniteDefaults (schema : Schema) : Prop :=
  ∀ kind, ∀ field ∈ schema.rootFields kind, ∀ argument ∈ field.arguments,
    schema.LeadsToFiniteDefaults argument

theorem hasFiniteNumbers_ofField {kind : OperationKind} {field : Field} {tool : Tool}
    (made : Tool.ofField schema kind field = .ok tool) :
    tool.inputSchema.HasFiniteNumbers ↔
      ∀ argument ∈ field.arguments, schema.LeadsToFiniteDefaults argument := by
  obtain ⟨_, _, ok⟩ := Tool.ofField_eq_ok_iff.mp made
  rw [Parameter.hasFiniteNumbers_toJson ok]
  exact hasFiniteDefaults_parameters_iff ⟨tool.inputSchema, ok⟩

theorem hasFiniteNumbers_tools {tools : List Tool} (ok : schema.tools = .ok tools) :
    (∀ tool ∈ tools, tool.inputSchema.HasFiniteNumbers) ↔ schema.HasFiniteDefaults := by
  have each : (∀ tool ∈ tools, tool.inputSchema.HasFiniteNumbers) ↔
      ∀ root ∈ schema.allRootFields, ∀ argument ∈ root.2.arguments,
        schema.LeadsToFiniteDefaults argument :=
    Except.forall_mem_iff_of_mapM (fun _ _ made => hasFiniteNumbers_ofField made)
      (tools_eq_ok_iff.mp ok).2
  rw [each]
  constructor
  · intro finite kind field member
    exact finite (kind, field) (mem_allRootFields.mpr member)
  · rintro finite ⟨kind, field⟩ member
    exact finite kind field (mem_allRootFields.mp member)

/-- Nothing but finite numbers is declared as a default, in input objects or for arguments. -/
theorem hasFiniteDefaults_of_isFloat
    (inputs : ∀ type ∈ schema.types, ∀ field ∈ type.kind.inputs,
      field.default.all (Json.isFloat true) = true)
    (arguments : ∀ kind, ∀ field ∈ schema.rootFields kind, ∀ argument ∈ field.arguments,
      argument.default.all (Json.isFloat true) = true) : schema.HasFiniteDefaults := by
  have finite : ∀ declared : InputValue, declared.default.all (Json.isFloat true) = true →
      declared.HasFiniteDefault := by
    intro declared floats value default
    rw [default, Option.all_some] at floats
    exact (Json.hasFiniteNumbers_iff_of_isFloat floats).mpr rfl
  intro kind field declared argument member
  refine ⟨finite argument (arguments kind field declared argument member), ?_⟩
  intro holder fields _ found inner included
  obtain ⟨type, known, isInput⟩ := Option.map_eq_some_iff.mp found
  have declares : inner ∈ type.kind.inputs := by
    rw [isInput]
    exact included
  exact finite inner (inputs type (List.mem_of_find?_eq_some known) inner declares)

/-- A schema whose tools can be made has a catalog, and the catalog is a JSON text exactly when no
default that it shows has a number out of range: no default of an argument, and none of a field of
an input object that arguments lead to, at any depth. -/
theorem catalog_isDocument_iff (schema : Schema) :
    ((∃ tools, schema.tools = .ok tools) ↔
        schema.HasCallableRoots ∧ schema.HasUsableArguments) ∧
      ∀ tools, schema.tools = .ok tools →
        (IsDocument (catalogText tools).toList ↔ schema.HasFiniteDefaults) := by
  constructor
  · exact exists_tools_iff
  · intro tools ok
    rw [isDocument_catalogText_iff, hasFiniteNumbers_tools ok]

/-- Defaults within the range of floating-point numbers, for an argument and behind another. -/
theorem catalog_isDocument_sample :
    ∃ schema tools,
      Schema.ofSource
          "input I { low: Float = -1e308 } type Query { f(x: I, high: Float = 1e308): Int }" =
          .ok schema ∧
        schema.tools = .ok tools ∧ schema.HasFiniteDefaults ∧
        IsDocument (catalogText tools).toList := by
  obtain ⟨schema, accepted, checked⟩ := Except.exists_eq_ok_of_any
    (Schema.ofSource
      "input I { low: Float = -1e308 } type Query { f(x: I, high: Float = 1e308): Int }")
    (fun schema =>
      schema.isPlain &&
        schema.types.all (fun type =>
          type.kind.inputs.all fun field => field.default.all (Json.isFloat true)) &&
        [.query, .mutation].all fun kind => (schema.rootFields kind).all fun field =>
          field.arguments.all fun argument => argument.default.all (Json.isFloat true))
    (by decide +kernel)
  simp only [Bool.and_eq_true] at checked
  obtain ⟨⟨plain, inputs⟩, arguments⟩ := checked
  obtain ⟨tools, ok⟩ := exists_tools_of_isPlain plain
  have finite : schema.HasFiniteDefaults := by
    apply hasFiniteDefaults_of_isFloat
    · intro type member
      exact List.all_eq_true.mp (List.all_eq_true.mp inputs type member)
    · intro kind field declared
      have each : (schema.rootFields kind).all (fun field => field.arguments.all fun argument =>
          argument.default.all (Json.isFloat true)) = true := by
        apply List.all_eq_true.mp arguments
        cases kind <;> simp
      exact List.all_eq_true.mp (List.all_eq_true.mp each field declared)
  have iff := (catalog_isDocument_iff schema).2 tools ok
  exact ⟨schema, tools, accepted, ok, finite, iff.mpr finite⟩

/-- A default beyond the range of floating-point numbers is accepted, and printed as a word that
JSON does not have. -/
theorem catalog_of_infinite_default :
    ∃ schema tools,
      Schema.ofSource "type Query { f(x: Float = 1e400): Int }" = .ok schema ∧
        schema.tools = .ok tools ∧
        ¬ IsDocument (catalogText tools).toList := by
  obtain ⟨schema, accepted, checked⟩ := Except.exists_eq_ok_of_any
    (Schema.ofSource "type Query { f(x: Float = 1e400): Int }")
    (fun schema =>
      schema.isPlain &&
        (schema.rootFields .query).any fun field =>
          field.arguments.any fun argument => argument.default.any (Json.isFloat false))
    (by decide +kernel)
  obtain ⟨plain, infinite⟩ := Bool.and_eq_true_iff.mp checked
  simp only [List.any_eq_true, Option.any_eq_true] at infinite
  obtain ⟨field, fieldMember, argument, member, value, declared, outside⟩ := infinite
  obtain ⟨tools, ok⟩ := exists_tools_of_isPlain plain
  refine ⟨schema, tools, accepted, ok, ?_⟩
  rw [isDocument_catalogText_iff, hasFiniteNumbers_tools ok]
  intro finite
  have own := (finite .query field fieldMember argument member).1
  exact absurd ((Json.hasFiniteNumbers_iff_of_isFloat outside).mp (own value declared)) (by decide)

end GraphQL.Schema

end Toolsmith

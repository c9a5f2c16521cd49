import Mathlib.Data.List.Lex
import Toolsmith.Proofs.Operation.Text

/-!
Why a value has no literal. A value is a tree of keys and values, and each node of it has a path
that tells which way leads there from the root. Of all nodes that stand in the way of a literal, the
first one in the order of the paths decides what is reported.
-/

set_option autoImplicit false

namespace Toolsmith

namespace GraphQL

/-- What a name may start with. -/
def StartsName (c : Char) : Prop :=
  c = '_' ∨ ('A' ≤ c ∧ c ≤ 'Z') ∨ ('a' ≤ c ∧ c ≤ 'z')

/-- What may follow in a name. -/
def ContinuesName (c : Char) : Prop :=
  c = '_' ∨ ('0' ≤ c ∧ c ≤ '9') ∨ ('A' ≤ c ∧ c ≤ 'Z') ∨ ('a' ≤ c ∧ c ≤ 'z')

theorem isNameStart_iff {c : Char} : isNameStart c = true ↔ StartsName c := by
  have isAlpha : c.isAlpha = true ↔ ('A' ≤ c ∧ c ≤ 'Z') ∨ ('a' ≤ c ∧ c ≤ 'z') := by
    change (decide ('A' ≤ c ∧ c ≤ 'Z') || (decide ('a' ≤ c) && decide (c ≤ 'z'))) = true ↔ _
    simp only [Bool.or_eq_true, Bool.and_eq_true, decide_eq_true_eq]
  rw [isNameStart, Bool.or_eq_true, isAlpha, beq_iff_eq]
  exact or_comm

theorem isNameContinue_iff {c : Char} : isNameContinue c = true ↔ ContinuesName c := by
  have isDigit : c.isDigit = true ↔ '0' ≤ c ∧ c ≤ '9' := by
    change (decide ('0' ≤ c) && decide (c ≤ '9')) = true ↔ _
    rw [Bool.and_eq_true, decide_eq_true_eq, decide_eq_true_eq]
  rw [isNameContinue, Bool.or_eq_true, isNameStart_iff, isDigit, StartsName, ContinuesName]
  tauto

end GraphQL

/-- A text that is a name from its first character to its last. -/
def Key.IsSpelledAsName (key : Key) : Prop :=
  ∃ first rest, key = .str (String.ofList (first :: rest)) ∧ GraphQL.StartsName first ∧
    ∀ c ∈ rest, GraphQL.ContinuesName c

theorem Key.isSpelledAsName_iff {key : Key} : key.IsSpelledAsName ↔ key.IsName := by
  constructor
  · rintro ⟨first, rest, rfl, starts, continues⟩
    refine ⟨_, rfl, ?_⟩
    rw [GraphQL.isName, String.toList_ofList]
    simp only [Bool.and_eq_true, List.all_eq_true]
    exact ⟨GraphQL.isNameStart_iff.mpr starts, fun c member =>
      GraphQL.isNameContinue_iff.mpr (continues c member)⟩
  · rintro ⟨text, rfl, valid⟩
    rw [GraphQL.isName] at valid
    split at valid
    · contradiction
    · rename_i first rest spelled
      simp only [Bool.and_eq_true, List.all_eq_true] at valid
      refine ⟨first, rest, ?_, GraphQL.isNameStart_iff.mp valid.1, fun c member =>
        GraphQL.isNameContinue_iff.mp (valid.2 c member)⟩
      rw [← spelled, String.ofList_toList]

/-! The nodes of a value. -/

/-- What stands in a value, and the value itself. -/
inductive Node where
  | key (key : Key)
  | value (value : Value)

namespace Node

/-- What a node holds, from left to right; the key of an entry comes before its value. -/
def inside : Node → List Node
  | .value (.list items) => items.map .value
  | .value (.tuple items) => items.map .value
  | .value (.map entries) => entries.flatMap fun entry => [.key entry.1, .value entry.2]
  | _ => []

/-- A path tells at each node on the way which of the nodes inside comes next. -/
inductive LeadsTo : Node → List Nat → Node → Prop
  | here (node : Node) : LeadsTo node [] node
  | inside {node child target : Node} {index : Nat} {path : List Nat}
      (held : node.inside[index]? = some child) (leads : LeadsTo child path target) :
      LeadsTo node (index :: path) target

/-- What has no literal by itself. -/
inductive IsFault : Node → EncodingError → Prop
  | key {key : Key} (noName : ¬ key.IsSpelledAsName) : IsFault (.key key) (.invalidName key)
  | number {value : Double} (infinite : value.isFinite = false) :
      IsFault (.value (.float value)) (.notFinite value)
  | foreign (typeName : String) : IsFault (.value (.foreign typeName)) (.unsupported typeName)

/-- Nothing in a node has a fault. -/
def IsFaultless (node : Node) : Prop :=
  ∀ path target, node.LeadsTo path target → ∀ error, ¬ target.IsFault error

/-- The first fault in a node. A path that is the start of another one comes before it, and so does
one that turns to the left where they part. -/
def FirstFault (node : Node) (error : EncodingError) : Prop :=
  ∃ path target, node.LeadsTo path target ∧ target.IsFault error ∧
    ∀ other place, node.LeadsTo other place → (∃ fault, place.IsFault fault) → path ≤ other

/-! Paths. -/

variable {node child : Node} {error other : EncodingError}

theorem nil_le_path (path : List Nat) : [] ≤ path := by
  cases path with
  | nil => exact le_rfl
  | cons => exact le_of_lt List.Lex.nil

theorem LeadsTo.unique {path : List Nat} {target place : Node} (leads : node.LeadsTo path target)
    (other : node.LeadsTo path place) : target = place := by
  induction leads with
  | here =>
      cases other
      rfl
  | inside held _ inductionHypothesis =>
      cases other with
      | inside otherHeld otherLeads =>
          obtain rfl := Option.some.inj (held.symm.trans otherHeld)
          exact inductionHypothesis otherLeads

theorem IsFault.unique (fault : node.IsFault error) (same : node.IsFault other) :
    error = other := by
  cases fault <;> cases same <;> rfl

theorem FirstFault.unique (first : node.FirstFault error) (same : node.FirstFault other) :
    error = other := by
  obtain ⟨path, target, leads, fault, least⟩ := first
  obtain ⟨path', target', leads', fault', least'⟩ := same
  obtain rfl := le_antisymm (least _ _ leads' ⟨_, fault'⟩) (least' _ _ leads ⟨_, fault⟩)
  obtain rfl := leads.unique leads'
  exact fault.unique fault'

theorem FirstFault.not_isFaultless (first : node.FirstFault error) : ¬ node.IsFaultless := by
  obtain ⟨path, target, leads, fault, _⟩ := first
  exact fun faultless => faultless path target leads error fault

theorem isFaultless_iff : node.IsFaultless ↔
    (∀ error, ¬ node.IsFault error) ∧ ∀ child ∈ node.inside, child.IsFaultless := by
  constructor
  · intro faultless
    refine ⟨faultless [] node (.here node), fun child member path target leads => ?_⟩
    obtain ⟨index, held⟩ := List.getElem?_of_mem member
    exact faultless (index :: path) target (.inside held leads)
  · rintro ⟨own, each⟩ path target leads
    cases leads with
    | here => exact own
    | inside held leads => exact each _ (List.mem_of_getElem? held) _ target leads

/-! Nodes beside each other. -/

/-- The first fault in nodes that stand beside each other: up to the node with the fault there is
none. -/
def FirstFaultAmong (nodes : List Node) (error : EncodingError) : Prop :=
  ∃ before child behind, nodes = before ++ child :: behind ∧
    (∀ earlier ∈ before, earlier.IsFaultless) ∧ child.FirstFault error

theorem FirstFaultAmong.append {before nodes : List Node} (behind : List Node)
    (faultless : ∀ earlier ∈ before, earlier.IsFaultless) (among : FirstFaultAmong nodes error) :
    FirstFaultAmong (before ++ nodes ++ behind) error := by
  obtain ⟨first, child, rest, rfl, clean, fault⟩ := among
  refine ⟨before ++ first, child, rest ++ behind, by simp, ?_, fault⟩
  exact List.forall_mem_append.mpr ⟨faultless, clean⟩

/-- The first fault is in the first of the nodes inside that has one. -/
theorem firstFault_of_among (own : ∀ error, ¬ node.IsFault error)
    (among : FirstFaultAmong node.inside error) : node.FirstFault error := by
  obtain ⟨before, child, behind, parts, clean, path, target, leads, fault, least⟩ := among
  have held : node.inside[before.length]? = some child := by simp [parts]
  refine ⟨before.length :: path, target, .inside held leads, fault, ?_⟩
  rintro _ place way ⟨found, faulty⟩
  cases way with
  | here => exact absurd faulty (own found)
  | @inside _ other _ index rest otherHeld otherLeads =>
      rcases Nat.lt_trichotomy before.length index with later | rfl | earlier
      · exact le_of_lt (List.Lex.rel later)
      · obtain rfl := Option.some.inj (held.symm.trans otherHeld)
        exact List.cons_le_cons _ (least _ _ otherLeads ⟨found, faulty⟩)
      · rw [parts, List.getElem?_append_left earlier] at otherHeld
        exact absurd faulty (clean other (List.mem_of_getElem? otherHeld) _ _ otherLeads found)

end Node

/-! Encoding, from left to right. -/

/-- A computation that looks at nodes from left to right fails at the first fault among them. -/
def StopsAtFirst {α : Type} (result : Except EncodingError α) (nodes : List Node) : Prop :=
  match result with
  | .ok _ => ∀ node ∈ nodes, node.IsFaultless
  | .error error => Node.FirstFaultAmong nodes error

namespace StopsAtFirst

variable {α β : Type} {nodes others : List Node}

theorem map {result : Except EncodingError α} (stops : StopsAtFirst result nodes)
    (change : α → β) : StopsAtFirst (result.map change) nodes := by
  cases result with
  | ok => exact stops
  | error => exact stops

theorem bind {result : Except EncodingError α} {next : α → Except EncodingError β}
    (stops : StopsAtFirst result nodes)
    (after : ∀ value, StopsAtFirst (next value) others) :
    StopsAtFirst (result >>= next) (nodes ++ others) := by
  cases result with
  | error error => exact Node.FirstFaultAmong.append others (List.forall_mem_nil _) stops
  | ok value =>
      have later := after value
      change StopsAtFirst (next value) (nodes ++ others)
      generalize next value = result at later
      cases result with
      | ok => exact List.forall_mem_append.mpr ⟨stops, later⟩
      | error error =>
          have among := Node.FirstFaultAmong.append [] stops later
          rw [List.append_nil] at among
          exact among

theorem node {result : Except EncodingError α} {node : Node}
    (own : ∀ error, ¬ node.IsFault error) (stops : StopsAtFirst result node.inside) :
    StopsAtFirst result [node] := by
  cases result with
  | ok => exact List.forall_mem_singleton.mpr (Node.isFaultless_iff.mpr ⟨own, stops⟩)
  | error error => exact ⟨[], node, [], rfl, nofun, Node.firstFault_of_among own stops⟩

theorem leaf {node : Node} (flat : node.inside = []) (own : ∀ error, ¬ node.IsFault error)
    (value : α) : StopsAtFirst (.ok value : Except EncodingError α) [node] := by
  apply StopsAtFirst.node own
  rw [flat]
  exact List.forall_mem_nil _

theorem firstFault_of_error {error : EncodingError} {node : Node}
    (stops : StopsAtFirst (.error error : Except EncodingError α) [node]) :
    node.FirstFault error := by
  obtain ⟨before, child, behind, parts, _, first⟩ := stops
  have member : child ∈ [node] := by
    rw [parts]
    exact List.mem_append_right before List.mem_cons_self
  obtain rfl := List.mem_singleton.mp member
  exact first

theorem exists_ok_iff {result : Except EncodingError α} {node : Node}
    (stops : StopsAtFirst result [node]) : (∃ value, result = .ok value) ↔ node.IsFaultless := by
  cases result with
  | ok value => exact iff_of_true ⟨value, rfl⟩ (stops node List.mem_cons_self)
  | error error =>
      refine iff_of_false nofun ?_
      exact (firstFault_of_error stops).not_isFaultless

theorem error_iff {result : Except EncodingError α} {node : Node}
    (stops : StopsAtFirst result [node]) (error : EncodingError) :
    result = .error error ↔ node.FirstFault error := by
  cases result with
  | ok value =>
      refine iff_of_false nofun fun first => ?_
      exact first.not_isFaultless (stops node List.mem_cons_self)
  | error found =>
      have first := firstFault_of_error stops
      constructor
      · intro same
        obtain rfl := Except.error.inj same
        exact first
      · intro same
        rw [first.unique same]

theorem fault {error : EncodingError} {node : Node} (fault : node.IsFault error) :
    StopsAtFirst (.error error : Except EncodingError α) [node] :=
  ⟨[], node, [], rfl, nofun, [], node, .here node, fault, fun _ _ _ _ => Node.nil_le_path _⟩

end StopsAtFirst

theorem Key.stopsAtFirst_name (key : Key) : StopsAtFirst key.name [.key key] := by
  cases result : key.name with
  | ok text =>
      have valid := isSpelledAsName_iff.mpr (isName_iff.mpr ⟨text, result⟩)
      refine StopsAtFirst.leaf rfl (fun error fault => ?_) text
      cases fault with
      | key noName => exact noName valid
  | error error =>
      have noName : ¬ key.IsSpelledAsName := by
        intro valid
        obtain ⟨text, ok⟩ := isName_iff.mp (isSpelledAsName_iff.mp valid)
        rw [result] at ok
        contradiction
      have same : error = .invalidName key := by
        unfold name at result
        split at result
        · split at result
          · contradiction
          · exact (Except.error.inj result).symm
        · exact (Except.error.inj result).symm
      rw [same]
      exact StopsAtFirst.fault (.key noName)

namespace Value

mutual

theorem stopsAtFirst_encode (value : Value) : StopsAtFirst value.encode [.value value] := by
  match value with
  | .null => exact StopsAtFirst.leaf rfl (by rintro _ ⟨⟩) _
  | .bool _ => exact StopsAtFirst.leaf rfl (by rintro _ ⟨⟩) _
  | .int _ => exact StopsAtFirst.leaf rfl (by rintro _ ⟨⟩) _
  | .str _ => exact StopsAtFirst.leaf rfl (by rintro _ ⟨⟩) _
  | .float value =>
    rw [encode]
    split
    · rename_i finite
      refine StopsAtFirst.leaf rfl (fun error fault => ?_) _
      cases fault with
      | number infinite => exact Bool.noConfusion (finite.symm.trans infinite)
    · rename_i infinite
      exact StopsAtFirst.fault (.number (by simpa using infinite))
  | .list items =>
    exact StopsAtFirst.node (fun _ fault => nomatch fault) ((stopsAtFirst_encodeItems items).map _)
  | .tuple items =>
    exact StopsAtFirst.node (fun _ fault => nomatch fault) ((stopsAtFirst_encodeItems items).map _)
  | .map entries =>
    exact StopsAtFirst.node (fun _ fault => nomatch fault)
      ((stopsAtFirst_encodeEntries entries).map _)
  | .foreign typeName => exact StopsAtFirst.fault (.foreign typeName)

theorem stopsAtFirst_encodeItems (items : List Value) :
    StopsAtFirst (encodeItems items) (items.map .value) := by
  match items with
  | [] => exact List.forall_mem_nil _
  | item :: rest =>
    rw [encodeItems]
    exact (stopsAtFirst_encode item).bind fun _ => (stopsAtFirst_encodeItems rest).map _

theorem stopsAtFirst_encodeEntries (entries : List (Key × Value)) :
    StopsAtFirst (encodeEntries entries)
      (entries.flatMap fun entry => [.key entry.1, .value entry.2]) := by
  match entries with
  | [] => exact List.forall_mem_nil _
  | (key, value) :: rest =>
    rw [encodeEntries, List.flatMap_cons]
    exact (Key.stopsAtFirst_name key).bind fun _ => (stopsAtFirst_encode value).bind fun _ =>
      (stopsAtFirst_encodeEntries rest).map _

end

end Value

theorem Arguments.stopsAtFirst_encode (arguments : Arguments) :
    StopsAtFirst arguments.encode [.value (.map arguments)] :=
  StopsAtFirst.node (fun _ fault => nomatch fault) (Value.stopsAtFirst_encodeEntries arguments)

/-! The texts of literals. -/

namespace GraphQL

theorem Executable.readValue?_text {literal : Literal} (wellFormed : literal.WellFormed) :
    Executable.readValue? literal.text = some literal.written := by
  have trees : Executable.trees? literal.text = some [literal.tree] := by
    rw [Executable.trees?, Literal.text, String.toList_ofList,
      (Literal.lexes_write wellFormed).lexemes?]
    simpa using Tree.ofPieces?_flatMap_pieces [literal.tree]
  rw [Executable.readValue?, trees]
  exact Literal.value?_tree wellFormed

theorem writeArguments_eq_nil_iff {fields : List (String × Literal)} :
    writeArguments fields = [] ↔ fields = [] := by
  cases fields with
  | nil => exact iff_of_true rfl rfl
  | cons => simp [writeArguments]

theorem Executable.readArguments?_writeArguments {fields : List (String × Literal)}
    (names : ∀ field ∈ fields, isName field.1 = true)
    (values : ∀ field ∈ fields, field.2.WellFormed) :
    Executable.readArguments? (String.ofList (writeArguments fields)) =
      some (Literal.fieldsWritten fields) := by
  have trees : Executable.trees? (String.ofList (writeArguments fields)) =
      some (argumentTrees fields) := by
    rw [Executable.trees?, String.toList_ofList, (lexes_writeArguments names values).lexemes?]
    exact Tree.ofPieces?_flatMap_pieces (argumentTrees fields)
  have read : Executable.arguments? (argumentTrees fields ++ []) =
      some (Literal.fieldsWritten fields, []) :=
    Executable.arguments?_argumentTrees values (Selection.followsField_allTrees [])
  rw [List.append_nil] at read
  rw [Executable.readArguments?, trees, Option.bind_some, read]

end GraphQL

open GraphQL

/-- A value has a literal unless something in it stands in the way: a number that is not finite, a
value of a foreign type, or a key that is not spelled as a name. What is reported is the first of
them from left to right, and a key comes before all that is inside its value. The literal says what
the value is, item by item and entry by entry. It is the same with arguments, which leave no text
exactly when there are none. -/
theorem encode_reports_first_fault :
    (∀ value : Value,
      ((∃ literal, value.encode = .ok literal) ↔ (Node.value value).IsFaultless) ∧
        (∀ error, value.encode = .error error ↔ (Node.value value).FirstFault error) ∧
          ∀ literal, value.encode = .ok literal →
            ∃ written, Executable.readValue? literal.text = some written ∧
              Denotes written value) ∧
      ∀ arguments : Arguments,
        ((∃ fields, arguments.encode = .ok fields) ↔
            (Node.value (.map arguments)).IsFaultless) ∧
          (∀ error, arguments.encode = .error error ↔
            (Node.value (.map arguments)).FirstFault error) ∧
            (arguments.encode.map writeArguments = .ok [] ↔ arguments = []) ∧
              ∀ fields, arguments.encode = .ok fields →
                ∃ written,
                  Executable.readArguments? (String.ofList (writeArguments fields)) =
                    some written ∧
                    FieldsDenote written arguments := by
  refine ⟨fun value => ?_, fun arguments => ?_⟩
  · have stops := value.stopsAtFirst_encode
    refine ⟨stops.exists_ok_iff, stops.error_iff, fun literal ok => ?_⟩
    obtain ⟨wellFormed, denotes⟩ := Value.denotes_of_encode ok
    exact ⟨_, Executable.readValue?_text wellFormed, denotes⟩
  · have stops := arguments.stopsAtFirst_encode
    refine ⟨stops.exists_ok_iff, stops.error_iff, ?_, fun fields ok => ?_⟩
    · constructor
      · intro unwritten
        obtain ⟨fields, ok, none⟩ := Except.map_eq_ok_iff.mp unwritten
        obtain rfl := writeArguments_eq_nil_iff.mp none
        obtain ⟨_, _, denotes⟩ := Value.fieldsDenote_of_encodeEntries ok
        cases denotes
        rfl
      · rintro rfl
        rfl
    · obtain ⟨names, wellFormed, denotes⟩ := Value.fieldsDenote_of_encodeEntries ok
      exact ⟨_, Executable.readArguments?_writeArguments names wellFormed, denotes⟩

/-- What is inside a value comes before the next key. -/
example : Value.encode (.map [(.str "a", .list [.int 1, .foreign "set"]), (.str "1", .null)]) =
    .error (.unsupported "set") := rfl

end Toolsmith

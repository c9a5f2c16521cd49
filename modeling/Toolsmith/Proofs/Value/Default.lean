import Toolsmith.GraphQL.Document.Rules
import Toolsmith.Proofs.GraphQL.Literal
import Toolsmith.Proofs.Value.Encoding
import Toolsmith.Value.Json

/-!
Encoded values as defaults. The literal of a value is nested as deep as the value, repeats no field
where the value repeats no key, and stands for the JSON of the value, whatever type it is given to.
-/

set_option autoImplicit false

namespace Toolsmith

open GraphQL (Literal Lexeme)

namespace Value

mutual

/-- How many lists, tuples and maps lie inside each other. -/
def nesting : Value → Nat
  | .list items => nestingOfAll items + 1
  | .tuple items => nestingOfAll items + 1
  | .map entries => nestingOfEntries entries + 1
  | _ => 0

def nestingOfAll : List Value → Nat
  | [] => 0
  | item :: rest => max item.nesting (nestingOfAll rest)

def nestingOfEntries : List (Key × Value) → Nat
  | [] => 0
  | (_, value) :: rest => max value.nesting (nestingOfEntries rest)

end

mutual

/-- No map in a value holds a key twice. -/
def HasDistinctKeys : Value → Prop
  | .list items => AllHaveDistinctKeys items
  | .tuple items => AllHaveDistinctKeys items
  | .map entries => (entries.map Prod.fst).Nodup ∧ EntriesHaveDistinctKeys entries
  | _ => True

def AllHaveDistinctKeys : List Value → Prop
  | [] => True
  | item :: rest => item.HasDistinctKeys ∧ AllHaveDistinctKeys rest

def EntriesHaveDistinctKeys : List (Key × Value) → Prop
  | [] => True
  | (_, value) :: rest => value.HasDistinctKeys ∧ EntriesHaveDistinctKeys rest

end

/-- What a literal has in common with the value it is the literal of. -/
structure Keeps (literal : Literal) (value : Value) : Prop where
  depth : (literal.tree.map Lexeme.token).depth = value.nesting
  json : value.toJson? = some literal.toJson
  distinct : value.HasDistinctKeys → literal.hasDistinctFields = true

structure KeepsAll (literals : List Literal) (items : List Value) : Prop where
  depth : Tree.depthOfAll ((Literal.itemTrees literals).map (Tree.map Lexeme.token)) =
    nestingOfAll items
  json : itemsToJson? items = some (Literal.itemsToJson literals)
  distinct : AllHaveDistinctKeys items → Literal.allHaveDistinctFields literals = true

structure KeepsEntries (fields : List (String × Literal)) (entries : List (Key × Value)) :
    Prop where
  keys : entries.map Prod.fst = fields.map fun field => .str field.1
  depth : Tree.depthOfAll ((Literal.fieldTrees fields).map (Tree.map Lexeme.token)) =
    nestingOfEntries entries
  json : entriesToJson? entries = some (Literal.fieldsToJson fields)
  distinct : EntriesHaveDistinctKeys entries → Literal.allFieldsHaveDistinctFields fields = true

theorem KeepsAll.list {literals : List Literal} {items : List Value}
    (keeps : KeepsAll literals items) : Keeps (.list literals) (.list items) where
  depth := by rw [Literal.tree, Tree.map, Tree.depth, keeps.depth, nesting]
  json := by rw [toJson?, keeps.json, Literal.toJson, Option.map_some]
  distinct := fun distinct => keeps.distinct (by rwa [HasDistinctKeys] at distinct)

theorem KeepsAll.tuple {literals : List Literal} {items : List Value}
    (keeps : KeepsAll literals items) : Keeps (.list literals) (.tuple items) where
  depth := by rw [Literal.tree, Tree.map, Tree.depth, keeps.depth, nesting]
  json := by rw [toJson?, keeps.json, Literal.toJson, Option.map_some]
  distinct := fun distinct => keeps.distinct (by rwa [HasDistinctKeys] at distinct)

theorem KeepsEntries.map {fields : List (String × Literal)} {entries : List (Key × Value)}
    (keeps : KeepsEntries fields entries) : Keeps (.object fields) (.map entries) where
  depth := by rw [Literal.tree, Tree.map, Tree.depth, keeps.depth, nesting]
  json := by rw [toJson?, keeps.json, Literal.toJson, Option.map_some]
  distinct := by
    intro distinct
    rw [HasDistinctKeys, keeps.keys] at distinct
    have names : (fields.map Prod.fst).Nodup := by
      apply List.Nodup.of_map Key.str
      rw [List.map_map]
      exact distinct.1
    simp [Literal.hasDistinctFields, names, keeps.distinct distinct.2]

theorem keeps_leaf {literal : Literal} {value : Value} {lexeme : Lexeme}
    (leaf : literal.tree = .leaf lexeme) (flat : value.nesting = 0)
    (json : value.toJson? = some literal.toJson) (distinct : literal.hasDistinctFields = true) :
    Keeps literal value where
  depth := by rw [leaf, Tree.map, Tree.depth, flat]
  json := json
  distinct := fun _ => distinct

mutual

theorem keeps_of_encode {value : Value} {literal : Literal} (ok : value.encode = .ok literal) :
    Keeps literal value := by
  match value with
  | .null =>
    obtain rfl := Except.ok.inj ok
    exact keeps_leaf rfl rfl rfl rfl
  | .bool truth =>
    obtain rfl := Except.ok.inj ok
    cases truth with
    | true => exact keeps_leaf rfl rfl rfl rfl
    | false => exact keeps_leaf rfl rfl rfl rfl
  | .int number =>
    obtain rfl := Except.ok.inj ok
    exact keeps_leaf rfl rfl rfl rfl
  | .str text =>
    obtain rfl := Except.ok.inj ok
    exact keeps_leaf rfl rfl rfl rfl
  | .float number =>
    by_cases finite : number.isFinite = true
    · simp only [encode, finite, if_true, Except.ok.injEq] at ok
      obtain rfl := ok
      exact keeps_leaf rfl rfl rfl rfl
    · simp [encode, finite] at ok
  | .list items =>
    simp only [encode, Except.map_eq_ok_iff] at ok
    obtain ⟨literals, itemsOk, rfl⟩ := ok
    exact (keepsAll_of_encodeItems itemsOk).list
  | .tuple items =>
    simp only [encode, Except.map_eq_ok_iff] at ok
    obtain ⟨literals, itemsOk, rfl⟩ := ok
    exact (keepsAll_of_encodeItems itemsOk).tuple
  | .map entries =>
    simp only [encode, Except.map_eq_ok_iff] at ok
    obtain ⟨fields, entriesOk, rfl⟩ := ok
    exact (keepsEntries_of_encodeEntries entriesOk).map
  | .foreign typeName => simp [encode] at ok

theorem keepsAll_of_encodeItems {items : List Value} {literals : List Literal}
    (ok : encodeItems items = .ok literals) : KeepsAll literals items := by
  match items with
  | [] =>
    obtain rfl := Except.ok.inj ok
    exact ⟨rfl, rfl, fun _ => rfl⟩
  | item :: rest =>
    simp only [encodeItems, Except.bind_eq_ok_iff] at ok
    obtain ⟨literal, itemOk, others, restOk, collected⟩ := ok
    obtain rfl := Except.ok.inj collected
    have first := keeps_of_encode itemOk
    have later := keepsAll_of_encodeItems restOk
    refine ⟨?_, ?_, fun distinct => ?_⟩
    · rw [Literal.itemTrees, List.map_cons, Tree.depthOfAll, first.depth, later.depth, nestingOfAll]
    · simp [itemsToJson?, first.json, later.json, Literal.itemsToJson]
    · rw [AllHaveDistinctKeys] at distinct
      simp [Literal.allHaveDistinctFields, first.distinct distinct.1, later.distinct distinct.2]

theorem keepsEntries_of_encodeEntries {entries : List (Key × Value)}
    {fields : List (String × Literal)} (ok : encodeEntries entries = .ok fields) :
    KeepsEntries fields entries := by
  match entries with
  | [] =>
    obtain rfl := Except.ok.inj ok
    exact ⟨rfl, rfl, rfl, fun _ => rfl⟩
  | (key, value) :: rest =>
    simp only [encodeEntries, Except.bind_eq_ok_iff] at ok
    obtain ⟨name, nameOk, literal, valueOk, others, restOk, collected⟩ := ok
    obtain rfl := Except.ok.inj collected
    obtain ⟨rfl, _⟩ := Key.name_eq_ok_iff.mp nameOk
    have first := keeps_of_encode valueOk
    have later := keepsEntries_of_encodeEntries restOk
    refine ⟨?_, ?_, ?_, fun distinct => ?_⟩
    · rw [List.map_cons, List.map_cons, later.keys]
    · simp [Literal.fieldTrees, Tree.map, Tree.depthOfAll, Tree.depth, first.depth, later.depth,
        nestingOfEntries]
    · simp [entriesToJson?, Key.memberKey?, first.json, later.json, Literal.fieldsToJson]
    · rw [EntriesHaveDistinctKeys] at distinct
      simp [Literal.allFieldsHaveDistinctFields, first.distinct distinct.1,
        later.distinct distinct.2]

end

end Value

end Toolsmith

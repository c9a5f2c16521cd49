import Toolsmith.Proofs.GraphQL.Executable
import Toolsmith.Proofs.Value.Encoding

/-!
What an encoded value is read as. The literal of a value, read by the grammar of operations, denotes
the value: it has the same parts in the same order, and each part is written in the form of its own
type.
-/

set_option autoImplicit false

namespace Toolsmith

open GraphQL (Literal Lexeme isName)

/-! Literals, as the grammar of operations reads them. -/

namespace GraphQL.Literal

mutual

/-- The value of the executable grammar that a literal is written as. -/
def written : Literal → Executable.Value
  | .null => .null
  | .bool value => .bool value
  | .int value => .int value
  | .float value => .float value.text
  | .str value => .str value
  | .enum name => .enum name
  | .list items => .list (itemsWritten items)
  | .object fields => .object (fieldsWritten fields)

def itemsWritten : List Literal → List Executable.Value
  | [] => []
  | item :: rest => item.written :: itemsWritten rest

def fieldsWritten : List (String × Literal) → List (String × Executable.Value)
  | [] => []
  | (name, value) :: rest => (name, value.written) :: fieldsWritten rest

end

/-- What is a value is no variable. -/
theorem items?_cons {item : Tree Lexeme} {value : Executable.Value}
    (read : Executable.value? item = some value) (rest : List (Tree Lexeme)) :
    Executable.items? (item :: rest) = (Executable.items? rest).map (value :: ·) := by
  rw [Executable.items?.eq_def]
  split
  · contradiction
  · rename_i same
    obtain ⟨rfl, _⟩ := List.cons.inj same
    simp [Executable.value?] at read
  · rename_i same
    obtain ⟨rfl, rfl⟩ := List.cons.inj same
    rw [read]
    cases Executable.items? rest <;> rfl

theorem fields?_cons {name : String} {item : Tree Lexeme} {value : Executable.Value}
    (read : Executable.value? item = some value) (rest : List (Tree Lexeme)) :
    Executable.fields?
        (.leaf (Token.nameLexeme name) :: .leaf colonLexeme :: item :: rest) =
      (Executable.fields? rest).map ((name, value) :: ·) := by
  rw [Executable.fields?.eq_def, Token.nameLexeme, colonLexeme]
  split
  · contradiction
  · rename_i same
    injection same with _ same
    injection same with _ same
    obtain ⟨rfl, _⟩ := List.cons.inj same
    simp [Executable.value?] at read
  · rename_i same
    injection same with first same
    injection same with _ same
    obtain ⟨rfl, rfl⟩ := List.cons.inj same
    simp only [Tree.leaf.injEq, Lexeme.mk.injEq, Token.name.injEq] at first
    rw [read, first.1]
    cases Executable.fields? rest <;> rfl
  · rename_i other
    exact (other name name.toList [':'] item rest rfl).elim

theorem items?_trees {items : List Literal}
    (each : ∀ item ∈ items, Executable.value? item.tree = some item.written) :
    Executable.items? (itemTrees items) = some (itemsWritten items) := by
  induction items with
  | nil => rfl
  | cons item rest inductionHypothesis =>
      have others := inductionHypothesis fun other member =>
        each other (List.mem_cons_of_mem item member)
      rw [itemTrees, items?_cons (each item List.mem_cons_self), others]
      rfl

theorem fields?_trees {fields : List (String × Literal)}
    (each : ∀ field ∈ fields, Executable.value? field.2.tree = some field.2.written) :
    Executable.fields? (fieldTrees fields) = some (fieldsWritten fields) := by
  induction fields with
  | nil => rfl
  | cons field rest inductionHypothesis =>
      have others := inductionHypothesis fun other member =>
        each other (List.mem_cons_of_mem field member)
      rw [fieldTrees, fields?_cons (each field List.mem_cons_self), others]
      rfl

theorem ofName_eq_enum {name : String} (noKeyword : ofName name = .enum name) :
    Executable.Value.ofName name = .enum name := by
  unfold ofName at noKeyword
  unfold Executable.Value.ofName
  split at noKeyword <;> simp_all

theorem value?_tree {literal : Literal} (wellFormed : literal.WellFormed) :
    Executable.value? literal.tree = some literal.written := by
  induction wellFormed with
  | null => rw [tree]; rfl
  | bool value =>
      cases value with
      | true => rw [tree]; rfl
      | false => rw [tree]; rfl
  | int value => rw [tree, Executable.value?, written]
  | float value => rw [tree, Executable.value?, written]
  | str value => rw [tree, Executable.value?, written]
  | enum name _ noKeyword =>
      rw [tree, Token.nameLexeme, Executable.value?, ofName_eq_enum noKeyword, written]
  | list items _ inductionHypothesis =>
      rw [tree, Executable.value?, items?_trees inductionHypothesis, written]
      rfl
  | object fields _ _ inductionHypothesis =>
      rw [tree, Executable.value?, fields?_trees inductionHypothesis, written]
      rfl

end GraphQL.Literal

/-! Values. -/

mutual

/-- What is written denotes a value: a number with a fraction or an exponent by its text, everything
else by what it is. A list is written alike whether it can change or not. -/
inductive Denotes : GraphQL.Executable.Value → Value → Prop
  | null : Denotes .null .null
  | bool (value : Bool) : Denotes (.bool value) (.bool value)
  | int (value : Int) : Denotes (.int value) (.int value)
  | float (value : Double) : Denotes (.float value.text) (.float value)
  | str (value : String) : Denotes (.str value) (.str value)
  | list {written : List GraphQL.Executable.Value} {items : List Value}
      (each : AllDenote written items) : Denotes (.list written) (.list items)
  | tuple {written : List GraphQL.Executable.Value} {items : List Value}
      (each : AllDenote written items) : Denotes (.list written) (.tuple items)
  | map {written : List (String × GraphQL.Executable.Value)} {entries : List (Key × Value)}
      (each : FieldsDenote written entries) : Denotes (.object written) (.map entries)

inductive AllDenote : List GraphQL.Executable.Value → List Value → Prop
  | nil : AllDenote [] []
  | cons {written : GraphQL.Executable.Value} {value : Value}
      {rest : List GraphQL.Executable.Value} {items : List Value}
      (first : Denotes written value) (others : AllDenote rest items) :
      AllDenote (written :: rest) (value :: items)

/-- Fields denote entries of the same names in the same order. -/
inductive FieldsDenote : List (String × GraphQL.Executable.Value) → List (Key × Value) → Prop
  | nil : FieldsDenote [] []
  | cons {name : String} {written : GraphQL.Executable.Value} {value : Value}
      {rest : List (String × GraphQL.Executable.Value)} {entries : List (Key × Value)}
      (first : Denotes written value) (others : FieldsDenote rest entries) :
      FieldsDenote ((name, written) :: rest) ((.str name, value) :: entries)

end

namespace Value

mutual

/-- A literal that a value is encoded as can be written, and denotes the value. -/
theorem denotes_of_encode {value : Value} {literal : Literal} (ok : value.encode = .ok literal) :
    literal.WellFormed ∧ Denotes literal.written value := by
  match value with
  | .null =>
    obtain rfl := Except.ok.inj ok
    exact ⟨.null, .null⟩
  | .bool value =>
    obtain rfl := Except.ok.inj ok
    exact ⟨.bool value, .bool value⟩
  | .int value =>
    obtain rfl := Except.ok.inj ok
    exact ⟨.int value, .int value⟩
  | .str value =>
    obtain rfl := Except.ok.inj ok
    exact ⟨.str value, .str value⟩
  | .float value =>
    by_cases finite : value.isFinite = true
    · simp only [encode, finite, if_true, Except.ok.injEq] at ok
      obtain rfl := ok
      exact ⟨.float value finite, .float value⟩
    · simp [encode, finite] at ok
  | .list items =>
    simp only [encode, Except.map_eq_ok_iff] at ok
    obtain ⟨literals, itemsOk, rfl⟩ := ok
    obtain ⟨wellFormed, denote⟩ := allDenote_of_encodeItems itemsOk
    exact ⟨.list literals wellFormed, .list denote⟩
  | .tuple items =>
    simp only [encode, Except.map_eq_ok_iff] at ok
    obtain ⟨literals, itemsOk, rfl⟩ := ok
    obtain ⟨wellFormed, denote⟩ := allDenote_of_encodeItems itemsOk
    exact ⟨.list literals wellFormed, .tuple denote⟩
  | .map entries =>
    simp only [encode, Except.map_eq_ok_iff] at ok
    obtain ⟨fields, entriesOk, rfl⟩ := ok
    obtain ⟨names, wellFormed, denote⟩ := fieldsDenote_of_encodeEntries entriesOk
    exact ⟨.object fields names wellFormed, .map denote⟩
  | .foreign typeName => simp [encode] at ok

theorem allDenote_of_encodeItems {items : List Value} {literals : List Literal}
    (ok : encodeItems items = .ok literals) :
    (∀ literal ∈ literals, literal.WellFormed) ∧
      AllDenote (Literal.itemsWritten literals) items := by
  match items with
  | [] =>
    obtain rfl := Except.ok.inj ok
    exact ⟨nofun, .nil⟩
  | item :: rest =>
    simp only [encodeItems, Except.bind_eq_ok_iff] at ok
    obtain ⟨literal, itemOk, others, restOk, collected⟩ := ok
    obtain rfl := Except.ok.inj collected
    obtain ⟨wellFormed, denotes⟩ := denotes_of_encode itemOk
    obtain ⟨allWellFormed, allDenote⟩ := allDenote_of_encodeItems restOk
    exact ⟨List.forall_mem_cons.mpr ⟨wellFormed, allWellFormed⟩, .cons denotes allDenote⟩

theorem fieldsDenote_of_encodeEntries {entries : List (Key × Value)}
    {fields : List (String × Literal)} (ok : encodeEntries entries = .ok fields) :
    (∀ field ∈ fields, isName field.1 = true) ∧ (∀ field ∈ fields, field.2.WellFormed) ∧
      FieldsDenote (Literal.fieldsWritten fields) entries := by
  match entries with
  | [] =>
    obtain rfl := Except.ok.inj ok
    exact ⟨nofun, nofun, .nil⟩
  | (key, value) :: rest =>
    simp only [encodeEntries, Except.bind_eq_ok_iff] at ok
    obtain ⟨name, nameOk, literal, valueOk, others, restOk, collected⟩ := ok
    obtain rfl := Except.ok.inj collected
    obtain ⟨rfl, valid⟩ := Key.name_eq_ok_iff.mp nameOk
    obtain ⟨wellFormed, denotes⟩ := denotes_of_encode valueOk
    obtain ⟨names, allWellFormed, allDenote⟩ := fieldsDenote_of_encodeEntries restOk
    exact ⟨List.forall_mem_cons.mpr ⟨valid, names⟩,
      List.forall_mem_cons.mpr ⟨wellFormed, allWellFormed⟩, .cons denotes allDenote⟩

end

end Value

end Toolsmith

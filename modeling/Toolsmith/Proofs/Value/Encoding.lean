import Toolsmith.Proofs.Outcome
import Toolsmith.Value

/-!
Which values have a literal. A value is encoded exactly when nothing in it stands in the way: no
number that is not finite, no key that is no name, and nothing of a foreign type.
-/

set_option autoImplicit false

namespace Toolsmith

/-- A key that can name a field. -/
def Key.IsName (key : Key) : Prop :=
  ∃ text, key = .str text ∧ GraphQL.isName text = true

inductive Value.Encodable : Value → Prop
  | null : Encodable .null
  | bool (value : Bool) : Encodable (.bool value)
  | int (value : Int) : Encodable (.int value)
  | float (value : Double) (finite : value.isFinite = true) : Encodable (.float value)
  | str (value : String) : Encodable (.str value)
  | list (items : List Value) (all : ∀ item ∈ items, Encodable item) : Encodable (.list items)
  | tuple (items : List Value) (all : ∀ item ∈ items, Encodable item) : Encodable (.tuple items)
  | map (entries : List (Key × Value)) (names : ∀ entry ∈ entries, entry.1.IsName)
      (all : ∀ entry ∈ entries, Encodable entry.2) : Encodable (.map entries)

/-- Arguments whose names are names and whose values can all be encoded. -/
def Arguments.Encodable (arguments : Arguments) : Prop :=
  ∀ argument ∈ arguments, argument.1.IsName ∧ argument.2.Encodable

theorem Key.name_eq_ok_iff {key : Key} {text : String} :
    key.name = .ok text ↔ key = .str text ∧ GraphQL.isName text = true := by
  cases key with
  | str written =>
      by_cases valid : GraphQL.isName written = true
      · simp only [name, valid, if_true, Except.ok.injEq, str.injEq, iff_self_and]
        rintro rfl
        exact valid
      · simp only [name, valid, str.injEq]
        constructor
        · intro impossible
          contradiction
        · rintro ⟨rfl, isName⟩
          contradiction
  | _ => simp [name]

theorem Key.isName_iff {key : Key} : key.IsName ↔ ∃ text, key.name = .ok text := by
  simp [IsName, name_eq_ok_iff]

namespace Value

open GraphQL (Literal)

mutual

theorem exists_encode_iff (value : Value) :
    (∃ literal, value.encode = .ok literal) ↔ value.Encodable := by
  match value with
  | .null => exact ⟨fun _ => .null, fun _ => ⟨_, rfl⟩⟩
  | .bool value => exact ⟨fun _ => .bool value, fun _ => ⟨_, rfl⟩⟩
  | .int value => exact ⟨fun _ => .int value, fun _ => ⟨_, rfl⟩⟩
  | .str value => exact ⟨fun _ => .str value, fun _ => ⟨_, rfl⟩⟩
  | .float value =>
    constructor
    · rintro ⟨literal, ok⟩
      by_cases finite : value.isFinite = true
      · exact .float value finite
      · simp [encode, finite] at ok
    · rintro ⟨⟩
      rename_i finite
      exact ⟨.float value, by simp [encode, finite]⟩
  | .list items =>
    simp only [encode, Except.map_eq_ok_iff]
    constructor
    · rintro ⟨_, literals, ok, _⟩
      exact .list items ((exists_encodeItems_iff items).mp ⟨literals, ok⟩)
    · rintro ⟨⟩
      rename_i all
      obtain ⟨literals, ok⟩ := (exists_encodeItems_iff items).mpr all
      exact ⟨.list literals, literals, ok, rfl⟩
  | .tuple items =>
    simp only [encode, Except.map_eq_ok_iff]
    constructor
    · rintro ⟨_, literals, ok, _⟩
      exact .tuple items ((exists_encodeItems_iff items).mp ⟨literals, ok⟩)
    · rintro ⟨⟩
      rename_i all
      obtain ⟨literals, ok⟩ := (exists_encodeItems_iff items).mpr all
      exact ⟨.list literals, literals, ok, rfl⟩
  | .map entries =>
    simp only [encode, Except.map_eq_ok_iff]
    constructor
    · rintro ⟨_, fields, ok, _⟩
      have each := (exists_encodeEntries_iff entries).mp ⟨fields, ok⟩
      exact .map entries (fun entry member => (each entry member).1)
        (fun entry member => (each entry member).2)
    · rintro ⟨⟩
      rename_i names all
      obtain ⟨fields, ok⟩ := (exists_encodeEntries_iff entries).mpr
        fun entry member => ⟨names entry member, all entry member⟩
      exact ⟨.object fields, fields, ok, rfl⟩
  | .foreign typeName =>
    constructor
    · rintro ⟨literal, ok⟩
      simp [encode] at ok
    · rintro ⟨⟩

theorem exists_encodeItems_iff (items : List Value) :
    (∃ literals, encodeItems items = .ok literals) ↔ ∀ item ∈ items, item.Encodable := by
  match items with
  | [] => simp [encodeItems]
  | item :: rest =>
    rw [List.forall_mem_cons, ← exists_encode_iff item, ← exists_encodeItems_iff rest]
    simp only [encodeItems, Except.bind_eq_ok_iff]
    constructor
    · rintro ⟨_, literal, ok, literals, restOk, _⟩
      exact ⟨⟨literal, ok⟩, ⟨literals, restOk⟩⟩
    · rintro ⟨⟨literal, ok⟩, ⟨literals, restOk⟩⟩
      exact ⟨literal :: literals, literal, ok, literals, restOk, rfl⟩

theorem exists_encodeEntries_iff (entries : List (Key × Value)) :
    (∃ fields, encodeEntries entries = .ok fields) ↔
      ∀ entry ∈ entries, entry.1.IsName ∧ entry.2.Encodable := by
  match entries with
  | [] => simp [encodeEntries]
  | (key, value) :: rest =>
    rw [List.forall_mem_cons, ← exists_encode_iff value, Key.isName_iff,
      ← exists_encodeEntries_iff rest]
    simp only [encodeEntries, Except.bind_eq_ok_iff]
    constructor
    · rintro ⟨_, name, nameOk, literal, ok, fields, restOk, _⟩
      exact ⟨⟨⟨name, nameOk⟩, ⟨literal, ok⟩⟩, ⟨fields, restOk⟩⟩
    · rintro ⟨⟨⟨name, nameOk⟩, ⟨literal, ok⟩⟩, ⟨fields, restOk⟩⟩
      exact ⟨(name, literal) :: fields, name, nameOk, literal, ok, fields, restOk, rfl⟩

end

end Value

theorem Arguments.exists_encode_iff (arguments : Arguments) :
    (∃ encoded, arguments.encode = .ok encoded) ↔ arguments.Encodable :=
  Value.exists_encodeEntries_iff arguments

end Toolsmith

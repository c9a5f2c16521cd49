import Toolsmith.Proofs.Json.Printing
import Toolsmith.Proofs.Operation.Reading
import Toolsmith.Proofs.Parameter.Conformance
import Toolsmith.Proofs.Tool.Index
import Toolsmith.Proofs.Value.Default

/-!
Calls that follow what is advertised. The mapper says what may be sent and the encoder how it is
written, and neither knows of the other; still, what is valid against the input schema of a tool is
written as literals of the declared types. The one difference is that the encoder does not know an
enum when it sees one: the name of a value is written as any other text.
-/

set_option autoImplicit false

namespace Toolsmith

/-! What is encoded, part by part. -/

namespace Value

open GraphQL (Literal)

/-- What is written of a list is written of its items. -/
theorem exists_item_of_encodeItems {items : List Value} {literals : List Literal}
    (ok : encodeItems items = .ok literals) :
    ∀ written ∈ Literal.itemsWritten literals, ∃ item ∈ items, ∃ literal,
      item.encode = .ok literal ∧ written = literal.written := by
  induction items generalizing literals with
  | nil =>
      obtain rfl := Except.ok.inj ok
      exact List.forall_mem_nil _
  | cons item rest inductionHypothesis =>
      simp only [encodeItems, Except.bind_eq_ok_iff] at ok
      obtain ⟨first, firstOk, others, othersOk, collected⟩ := ok
      obtain rfl := Except.ok.inj collected
      intro written member
      rcases List.mem_cons.mp member with rfl | later
      · exact ⟨item, List.mem_cons_self, first, firstOk, rfl⟩
      · obtain ⟨source, included, literal⟩ := inductionHypothesis othersOk written later
        exact ⟨source, List.mem_cons_of_mem item included, literal⟩

/-- What is written of a map has the keys of its entries, in their order, and is written of their
values. -/
theorem exists_entry_of_encodeEntries {entries : List (Key × Value)}
    {fields : List (String × Literal)} (ok : encodeEntries entries = .ok fields) :
    entries.map Prod.fst = ((Literal.fieldsWritten fields).map Prod.fst).map .str ∧
      ∀ field ∈ Literal.fieldsWritten fields, ∃ entry ∈ entries, entry.1 = .str field.1 ∧
        ∃ literal, entry.2.encode = .ok literal ∧ field.2 = literal.written := by
  induction entries generalizing fields with
  | nil =>
      obtain rfl := Except.ok.inj ok
      exact ⟨rfl, List.forall_mem_nil _⟩
  | cons entry rest inductionHypothesis =>
      simp only [encodeEntries, Except.bind_eq_ok_iff] at ok
      obtain ⟨name, nameOk, literal, literalOk, others, othersOk, collected⟩ := ok
      obtain rfl := Except.ok.inj collected
      obtain ⟨key, _⟩ := Key.name_eq_ok_iff.mp nameOk
      obtain ⟨keys, each⟩ := inductionHypothesis othersOk
      constructor
      · rw [Literal.fieldsWritten, List.map_cons, List.map_cons, List.map_cons, key, keys]
      · intro field member
        rcases List.mem_cons.mp member with rfl | later
        · exact ⟨entry, List.mem_cons_self, key, literal, literalOk, rfl⟩
        · obtain ⟨source, included, encoded⟩ := each field later
          exact ⟨source, List.mem_cons_of_mem entry included, encoded⟩

theorem exists_element_of_itemsToJson? {items : List Value} {elements : List Json}
    (given : itemsToJson? items = some elements) :
    ∀ item ∈ items, ∃ element ∈ elements, item.toJson? = some element := by
  induction items generalizing elements with
  | nil => simp
  | cons item rest inductionHypothesis =>
      simp only [itemsToJson?, Option.bind_eq_bind, Option.bind_eq_some_iff] at given
      obtain ⟨first, firstGiven, others, othersGiven, collected⟩ := given
      obtain rfl := Option.some.inj collected
      intro value member
      rcases List.mem_cons.mp member with rfl | later
      · exact ⟨first, List.mem_cons_self, firstGiven⟩
      · obtain ⟨element, included, same⟩ := inductionHypothesis othersGiven value later
        exact ⟨element, List.mem_cons_of_mem first included, same⟩

/-- The members have the names of the entries, as long as these are texts. -/
theorem exists_member_of_entriesToJson? {entries : List (Key × Value)}
    {members : List (String × Json)} (given : entriesToJson? entries = some members) :
    (∀ names, entries.map Prod.fst = names.map .str → members.map Prod.fst = names) ∧
      ∀ entry ∈ entries, ∃ member ∈ members, entry.1.memberKey? = some member.1 ∧
        entry.2.toJson? = some member.2 := by
  induction entries generalizing members with
  | nil =>
      obtain rfl := Option.some.inj given
      simp
  | cons entry rest inductionHypothesis =>
      simp only [entriesToJson?, Option.bind_eq_bind, Option.bind_eq_some_iff] at given
      obtain ⟨name, nameGiven, first, firstGiven, others, othersGiven, collected⟩ := given
      obtain rfl := Option.some.inj collected
      obtain ⟨names, each⟩ := inductionHypothesis othersGiven
      constructor
      · intro texts keys
        cases texts with
        | nil => simp at keys
        | cons text texts =>
            rw [List.map_cons, List.map_cons, List.cons.injEq] at keys
            rw [keys.1, Key.memberKey?, Option.some.injEq] at nameGiven
            rw [List.map_cons, names texts keys.2, nameGiven]
      · intro source member
        rcases List.mem_cons.mp member with rfl | later
        · exact ⟨(name, first), List.mem_cons_self, nameGiven, firstGiven⟩
        · obtain ⟨found, included, same⟩ := each source later
          exact ⟨found, List.mem_cons_of_mem _ included, same⟩

theorem items_of_toJson? {value : Value} {elements : List Json}
    (given : value.toJson? = some (.arr elements)) :
    ∃ items, (value = .list items ∨ value = .tuple items) ∧
      itemsToJson? items = some elements := by
  cases value with
  | list items => exact ⟨items, .inl rfl, by simpa [toJson?] using given⟩
  | tuple items => exact ⟨items, .inr rfl, by simpa [toJson?] using given⟩
  | _ => simp [toJson?] at given

theorem entries_of_toJson? {value : Value} {members : List (String × Json)}
    (given : value.toJson? = some (.obj members)) :
    ∃ entries, value = .map entries ∧ entriesToJson? entries = some members := by
  cases value with
  | map entries => exact ⟨entries, rfl, by simpa [toJson?] using given⟩
  | _ => simp [toJson?] at given

/-- Neither a list nor a tuple nor a map. -/
def isSingle : Value → Bool
  | .list _ => false
  | .tuple _ => false
  | .map _ => false
  | _ => true

/-- What is neither an array nor an object is the JSON form of one value only. -/
theorem eq_toValue_of_toJson? {value : Value} {json : Json} (given : value.toJson? = some json)
    (single : json.toValue.isSingle = true) : value = json.toValue := by
  cases value with
  | list items =>
      obtain ⟨elements, _, rfl⟩ := Option.map_eq_some_iff.mp given
      contradiction
  | tuple items =>
      obtain ⟨elements, _, rfl⟩ := Option.map_eq_some_iff.mp given
      contradiction
  | map entries =>
      obtain ⟨members, _, rfl⟩ := Option.map_eq_some_iff.mp given
      contradiction
  | foreign _ => contradiction
  | _ =>
      obtain rfl := Option.some.inj given
      rfl

theorem allHaveDistinctKeys_iff {items : List Value} :
    AllHaveDistinctKeys items ↔ ∀ item ∈ items, item.HasDistinctKeys := by
  induction items with
  | nil => simp [AllHaveDistinctKeys]
  | cons item rest inductionHypothesis =>
      rw [AllHaveDistinctKeys, inductionHypothesis, List.forall_mem_cons]

theorem entriesHaveDistinctKeys_iff {entries : List (Key × Value)} :
    EntriesHaveDistinctKeys entries ↔ ∀ entry ∈ entries, entry.2.HasDistinctKeys := by
  induction entries with
  | nil => simp [EntriesHaveDistinctKeys]
  | cons entry rest inductionHypothesis =>
      rw [EntriesHaveDistinctKeys, inductionHypothesis, List.forall_mem_cons]

/-! Lists and tuples. -/

section

variable {value : Value} {items : List Value} (shape : value = .list items ∨ value = .tuple items)
include shape

theorem hasDistinctKeys_items (distinct : value.HasDistinctKeys) :
    ∀ item ∈ items, item.HasDistinctKeys := by
  apply allHaveDistinctKeys_iff.mp
  rcases shape with rfl | rfl
  · exact distinct
  · exact distinct

theorem encode_collection {literals : List Literal} (ok : encodeItems items = .ok literals) :
    value.encode = .ok (.list literals) := by
  rcases shape with rfl | rfl
  · rw [encode, ok]
    rfl
  · rw [encode, ok]
    rfl

end

end Value

namespace GraphQL.Schema

variable {schema : Schema}

/-! The literals of a type. -/

/-- The literals of a scalar type. A custom scalar has those of texts. -/
def WrittenForScalar (name : String) (literal : Executable.Value) : Prop :=
  if name = "Int" then ∃ number, literal = .int number
  else if name = "Float" then (∃ number, literal = .int number) ∨ ∃ text, literal = .float text
  else if name = "Boolean" then ∃ truth, literal = .bool truth
  else ∃ text, literal = .str text

/-- The fields of an object, or the arguments of a field, as they are declared: each has a declared
name, none is there twice, none that is needed is missing, and each literal is one of its type. -/
structure AdmitsFields (admits : TypeRef → Executable.Value → Prop) (declared : List InputValue)
    (written : List (String × Executable.Value)) : Prop where
  distinct : (written.map Prod.fst).Nodup
  known : ∀ field ∈ written, field.1 ∈ declared.map (·.name)
  present : ∀ value ∈ declared, value.type.isRequired = true → value.default = none →
    value.name ∈ written.map Prod.fst
  each : ∀ value ∈ declared, ∀ field ∈ written, field.1 = value.name → admits value.type field.2

/-- A literal is one of a type, by the input rules of GraphQL; `choice` tells how the values of
enums are written. A type that takes no values is treated as a text. -/
inductive Admits (schema : Schema) (choice : String → Executable.Value) :
    TypeRef → Executable.Value → Prop
  | list {items : TypeRef} {literals : List Executable.Value} (required : Bool)
      (each : ∀ literal ∈ literals, Admits schema choice items literal) :
      Admits schema choice (.list items required) (.list literals)
  | enum {name : String} {values : List String} {text : String} (required : Bool)
      (kind : schema.kind? name = some (.enum (some values))) (member : text ∈ values) :
      Admits schema choice (.named name required) (choice text)
  | input {name : String} {fields : List InputValue}
      {written : List (String × Executable.Value)} (required : Bool)
      (kind : schema.kind? name = some (.input fields))
      (distinct : (written.map Prod.fst).Nodup)
      (known : ∀ field ∈ written, field.1 ∈ fields.map (·.name))
      (present : ∀ value ∈ fields, value.type.isRequired = true → value.default = none →
        value.name ∈ written.map Prod.fst)
      (each : ∀ value ∈ fields, ∀ field ∈ written, field.1 = value.name →
        Admits schema choice value.type field.2) :
      Admits schema choice (.named name required) (.object written)
  | scalar {name : String} {literal : Executable.Value} (required : Bool)
      (kind : schema.kind? name = some .scalar) (written : WrittenForScalar name literal) :
      Admits schema choice (.named name required) literal
  | text {name : String} {text : String} (required : Bool)
      (noInput : ∀ kind, schema.kind? name = some kind → kind.takesValues = false) :
      Admits schema choice (.named name required) (.str text)

/-- No enum is reached from a type. -/
def AvoidsEnums (schema : Schema) (type : TypeRef) : Prop :=
  ∀ name, schema.Reaches type.typeName name → ∀ values, schema.kind? name ≠ some (.enum values)

/-- Where there is no enum, nothing hangs on how the values of enums are written. -/
theorem Admits.of_avoidsEnums {choice other : String → Executable.Value} {type : TypeRef}
    {literal : Executable.Value} (admits : schema.Admits choice type literal)
    (avoids : schema.AvoidsEnums type) : schema.Admits other type literal := by
  induction admits with
  | list required _ inductionHypothesis =>
      exact .list required fun literal member => inductionHypothesis literal member avoids
  | enum required kind => exact absurd kind (avoids _ .refl _)
  | @input name fields written required kind distinct known present _ inductionHypothesis =>
      apply Admits.input required kind distinct known present
      intro value declared field member named
      apply inductionHypothesis value declared field member named
      intro reached reaches
      exact avoids reached (.head ⟨fields, kind, value, declared, rfl⟩ reaches)
  | scalar required kind written => exact .scalar required kind written
  | text required noInput => exact .text required noInput

/-! Calls as they are advertised. -/

/-- The keys of all maps in a value are names that the types of the maps declare. -/
inductive UsesDeclaredNames (schema : Schema) : TypeRef → Value → Prop
  | list {items : TypeRef} {values : List Value} (required : Bool)
      (each : ∀ value ∈ values, UsesDeclaredNames schema items value) :
      UsesDeclaredNames schema (.list items required) (.list values)
  | tuple {items : TypeRef} {values : List Value} (required : Bool)
      (each : ∀ value ∈ values, UsesDeclaredNames schema items value) :
      UsesDeclaredNames schema (.list items required) (.tuple values)
  | map {name : String} {fields : List InputValue} {entries : List (Key × Value)}
      (required : Bool) (kind : schema.kind? name = some (.input fields))
      (known : ∀ entry ∈ entries, ∃ field ∈ fields, entry.1 = .str field.name)
      (each : ∀ entry ∈ entries, ∀ field ∈ fields, entry.1 = .str field.name →
        UsesDeclaredNames schema field.type entry.2) :
      UsesDeclaredNames schema (.named name required) (.map entries)
  | single {value : Value} (type : TypeRef) (single : value.isSingle = true) :
      UsesDeclaredNames schema type value

/-- Arguments that use declared names only, at every depth and each at most once, and hold finite
numbers only; `members` is what they are as JSON. -/
structure Follows (schema : Schema) (declared : List InputValue) (arguments : Arguments)
    (members : List (String × Json)) : Prop where
  json : Value.entriesToJson? arguments = some members
  finite : (Json.obj members).HasFiniteNumbers
  distinct : (Value.map arguments).HasDistinctKeys
  known : ∀ entry ∈ arguments, ∃ argument ∈ declared, entry.1 = .str argument.name
  each : ∀ entry ∈ arguments, ∀ argument ∈ declared, entry.1 = .str argument.name →
    schema.UsesDeclaredNames argument.type entry.2

/-- Entries under declared names are encoded, if their values are. -/
theorem exists_encodeEntries {admits : TypeRef → Executable.Value → Prop}
    {declared : List InputValue} {entries : List (Key × Value)} {members : List (String × Json)}
    (given : Value.entriesToJson? entries = some members)
    (named : ∀ value ∈ declared, value.IsNamed) (distinct : (entries.map Prod.fst).Nodup)
    (known : ∀ entry ∈ entries, ∃ value ∈ declared, entry.1 = .str value.name)
    (present : ∀ value ∈ declared, value.type.isRequired = true →
      value.name ∈ members.map Prod.fst)
    (each : ∀ entry ∈ entries, ∀ value ∈ declared, entry.1 = .str value.name →
      ∃ literal, entry.2.encode = .ok literal ∧ admits value.type literal.written) :
    ∃ fields, Value.encodeEntries entries = .ok fields ∧
      AdmitsFields admits declared (Literal.fieldsWritten fields) := by
  have encodable : ∀ entry ∈ entries, entry.1.IsName ∧ entry.2.Encodable := by
    intro entry member
    obtain ⟨value, included, key⟩ := known entry member
    obtain ⟨literal, ok, _⟩ := each entry member value included key
    exact ⟨⟨value.name, key, (named value included).1⟩,
      (Value.exists_encode_iff entry.2).mp ⟨literal, ok⟩⟩
  obtain ⟨fields, ok⟩ := (Value.exists_encodeEntries_iff entries).mpr encodable
  obtain ⟨keys, sources⟩ := Value.exists_entry_of_encodeEntries ok
  have sameNames : members.map Prod.fst = (Literal.fieldsWritten fields).map Prod.fst :=
    (Value.exists_member_of_entriesToJson? given).1 _ keys
  refine ⟨fields, ok, ?_, ?_, ?_, ?_⟩
  · rw [keys] at distinct
    exact distinct.of_map
  · intro field member
    obtain ⟨entry, entryMember, key, _⟩ := sources field member
    obtain ⟨value, valueMember, sameKey⟩ := known entry entryMember
    rw [key, Key.str.injEq] at sameKey
    exact List.mem_map.mpr ⟨value, valueMember, sameKey.symm⟩
  · intro value included required _
    rw [← sameNames]
    exact present value included required
  · intro value included field member sameName
    obtain ⟨entry, entryMember, key, literal, encoded, written⟩ := sources field member
    have declaredKey : entry.1 = .str value.name := by rw [key, ← sameName]
    obtain ⟨own, ownOk, admitted⟩ := each entry entryMember value included declaredKey
    rw [encoded] at ownOk
    rw [written, Except.ok.inj ownOk]
    exact admitted

/-- Items of a list are encoded, if each of them is. -/
theorem exists_encodeItems {admits : Executable.Value → Prop} {items : List Value}
    (each : ∀ item ∈ items, ∃ literal, item.encode = .ok literal ∧ admits literal.written) :
    ∃ literals, Value.encodeItems items = .ok literals ∧
      ∀ written ∈ Literal.itemsWritten literals, admits written := by
  have encodable : ∀ item ∈ items, item.Encodable := by
    intro item member
    obtain ⟨literal, ok, _⟩ := each item member
    exact (Value.exists_encode_iff item).mp ⟨literal, ok⟩
  obtain ⟨literals, ok⟩ := (Value.exists_encodeItems_iff items).mpr encodable
  refine ⟨literals, ok, ?_⟩
  intro written member
  obtain ⟨item, included, literal, encoded, rfl⟩ :=
    Value.exists_item_of_encodeItems ok written member
  obtain ⟨own, ownOk, admitted⟩ := each item included
  rw [encoded] at ownOk
  rw [Except.ok.inj ownOk]
  exact admitted

theorem UsesDeclaredNames.items {items : TypeRef} {required : Bool} {value : Value}
    {values : List Value} (uses : schema.UsesDeclaredNames (.list items required) value)
    (shape : value = .list values ∨ value = .tuple values) :
    ∀ item ∈ values, schema.UsesDeclaredNames items item := by
  rcases shape with rfl | rfl
  · cases uses with
    | list _ each => exact each
    | single _ single => contradiction
  · cases uses with
    | tuple _ each => exact each
    | single _ single => contradiction

/-- A value that a scalar takes is encoded as a literal of the scalar. -/
theorem exists_encode_of_taken {name : String} {json : Json} (taken : TakenByScalar name json)
    (finite : json.HasFiniteNumbers) {value : Value} (given : value.toJson? = some json) :
    ∃ literal, value.encode = .ok literal ∧ WrittenForScalar name literal.written := by
  unfold TakenByScalar at taken
  unfold WrittenForScalar
  by_cases isInt : name = "Int"
  · simp only [if_pos isInt] at taken ⊢
    obtain ⟨number, rfl⟩ := taken
    rw [Value.eq_toValue_of_toJson? given rfl]
    exact ⟨.int number, rfl, number, rfl⟩
  simp only [if_neg isInt] at taken ⊢
  by_cases isFloat : name = "Float"
  · simp only [if_pos isFloat] at taken ⊢
    rcases taken with ⟨number, rfl⟩ | ⟨number, rfl⟩
    · rw [Value.eq_toValue_of_toJson? given rfl]
      exact ⟨.int number, rfl, .inl ⟨number, rfl⟩⟩
    · rw [Value.eq_toValue_of_toJson? given rfl]
      cases finite with
      | float _ finite => exact ⟨.float number, if_pos finite, .inr ⟨number.text, rfl⟩⟩
  simp only [if_neg isFloat] at taken ⊢
  by_cases isBoolean : name = "Boolean"
  · simp only [if_pos isBoolean] at taken ⊢
    obtain ⟨truth, rfl⟩ := taken
    rw [Value.eq_toValue_of_toJson? given rfl]
    exact ⟨.bool truth, rfl, truth, rfl⟩
  · simp only [if_neg isBoolean] at taken ⊢
    obtain ⟨text, rfl⟩ := taken
    rw [Value.eq_toValue_of_toJson? given rfl]
    exact ⟨.str text, rfl, text, rfl⟩

/-- A value that conforms to a type and uses declared names only is encoded as a literal of the
type, but for the values of enums, which are written as texts. -/
theorem exists_encode_of_conforms (named : schema.IsNamed) {type : TypeRef} {json : Json}
    (conforms : schema.Conforms type json) (finite : json.HasFiniteNumbers) {value : Value}
    (given : value.toJson? = some json) (distinct : value.HasDistinctKeys)
    (uses : schema.UsesDeclaredNames type value) :
    ∃ literal, value.encode = .ok literal ∧ schema.Admits .str type literal.written := by
  induction conforms generalizing value with
  | @list items elements required _ inductionHypothesis =>
      obtain ⟨values, shape, valuesGiven⟩ := Value.items_of_toJson? given
      have distinctItems := Value.hasDistinctKeys_items shape distinct
      have usesItems := uses.items shape
      have each : ∀ item ∈ values, ∃ literal, item.encode = .ok literal ∧
          schema.Admits .str items literal.written := by
        intro item member
        obtain ⟨element, included, same⟩ :=
          Value.exists_element_of_itemsToJson? valuesGiven item member
        exact inductionHypothesis element included
          (Json.hasFiniteNumbers_arr.mp finite element included) same
          (distinctItems item member) (usesItems item member)
      obtain ⟨literals, ok, admitted⟩ := exists_encodeItems each
      exact ⟨.list literals, Value.encode_collection shape ok, .list required admitted⟩
  | @enum name values text required kind member =>
      rw [Value.eq_toValue_of_toJson? given rfl]
      exact ⟨.str text, rfl, .enum required kind member⟩
  | @input name fields members required kind present _ inductionHypothesis =>
      obtain ⟨entries, rfl, entriesGiven⟩ := Value.entries_of_toJson? given
      obtain ⟨distinctKeys, distinctEntries⟩ := distinct
      cases uses with
      | single _ single => contradiction
      | map _ declaredKind known uses =>
          rw [kind, Option.some.injEq, TypeKind.input.injEq] at declaredKind
          subst declaredKind
          have each : ∀ entry ∈ entries, ∀ field ∈ fields, entry.1 = .str field.name →
              ∃ literal, entry.2.encode = .ok literal ∧
                schema.Admits .str field.type literal.written := by
            intro entry member field included key
            obtain ⟨found, foundMember, sameKey, sameValue⟩ :=
              (Value.exists_member_of_entriesToJson? entriesGiven).2 entry member
            rw [key, Key.memberKey?, Option.some.injEq] at sameKey
            exact inductionHypothesis field included found foundMember sameKey.symm
              (Json.hasFiniteNumbers_obj.mp finite found foundMember) sameValue
              (Value.entriesHaveDistinctKeys_iff.mp distinctEntries entry member)
              (uses entry member field included key)
          obtain ⟨literals, ok, admitted⟩ := exists_encodeEntries entriesGiven (named.kind? kind)
            distinctKeys known present each
          refine ⟨.object literals, ?_, ?_⟩
          · rw [Value.encode, ok]
            rfl
          · exact .input required kind admitted.distinct admitted.known admitted.present
              admitted.each
  | @scalar name json required kind taken =>
      obtain ⟨literal, ok, written⟩ := exists_encode_of_taken taken finite given
      exact ⟨literal, ok, .scalar required kind written⟩
  | @text name text required noInput =>
      rw [Value.eq_toValue_of_toJson? given rfl]
      exact ⟨.str text, rfl, .text required noInput⟩

/-! The whole call. -/

/-- Arguments that follow the declarations and are valid against the JSON Schema for them conform
argument by argument, and so they are encoded. -/
theorem exists_encode_of_follows (named : schema.IsNamed) {declared : List InputValue}
    (ownNames : ∀ argument ∈ declared, argument.IsNamed)
    (acyclic : ∀ argument ∈ declared, schema.IsAcyclic argument.type) {arguments : Arguments}
    {members : List (String × Json)} (follows : schema.Follows declared arguments members)
    {json : Json} (ok : (schema.parameters declared).toJson = .ok json)
    (valid : Json.Validates json (.obj members)) :
    ∃ fields, arguments.encode = .ok fields ∧
      AdmitsFields (schema.Admits .str) declared (Literal.fieldsWritten fields) := by
  obtain ⟨_, same, present, accepted⟩ :=
    accepts_parameters_iff.mp ((Parameter.validates_toJson ok).mp valid)
  obtain rfl := Json.obj.inj same
  obtain ⟨distinctKeys, distinctEntries⟩ := follows.distinct
  apply exists_encodeEntries follows.json ownNames distinctKeys follows.known present
  intro entry member argument included key
  obtain ⟨found, foundMember, sameKey, sameValue⟩ :=
    (Value.exists_member_of_entriesToJson? follows.json).2 entry member
  rw [key, Key.memberKey?, Option.some.injEq] at sameKey
  have conforms := conforms_of_accepts (parameterOf_parameterWithin schema [] argument.type)
    (acyclic argument included) (by simp) (accepted argument included found foundMember
      sameKey.symm)
  exact exists_encode_of_conforms named conforms
    (Json.hasFiniteNumbers_obj.mp follows.finite found foundMember) sameValue
    (Value.entriesHaveDistinctKeys_iff.mp distinctEntries entry member)
    (follows.each entry member argument included key)

/-- A call of a tool with arguments that are valid against its input schema is compiled, if no
argument type leads to a cycle of input objects and the arguments use declared names only. Its text
has for each argument a literal of the declared type, where the values of enums are written as texts;
so without enums they are literals by the input rules of GraphQL. -/
theorem compile_of_validates {source : String} (accepted : ofSource source = .ok schema)
    (policy : SelectionPolicy) {tools : List Tool} (ok : schema.tools = .ok tools) {tool : Tool}
    (member : tool ∈ tools) {kind : OperationKind} {field : Field}
    (declared : field ∈ schema.rootFields kind)
    (toolName : tool.name = ToolName.text ⟨kind, field.name⟩)
    (acyclic : ∀ argument ∈ field.arguments, schema.IsAcyclic argument.type)
    {arguments : Arguments} {members : List (String × Json)}
    (follows : schema.Follows field.arguments arguments members)
    (valid : Json.Validates tool.inputSchema (.obj members)) :
    ∃ operation written selections,
      schema.compile policy ⟨tool.name, arguments⟩ = .ok operation ∧
        Executable.read? operation.text =
          some [.operation kind.keyword none [] []
            [.field none field.name written [] selections]] ∧
        AdmitsFields (schema.Admits .str) field.arguments written ∧
        ((∀ argument ∈ field.arguments, schema.AvoidsEnums argument.type) →
          AdmitsFields (schema.Admits .enum) field.arguments written) := by
  have once := declaresOnce_ofSource accepted
  have named := isNamed_ofSource accepted
  have made := ofField_of_mem_tools once ok member declared toolName
  obtain ⟨_, _, schemaOk⟩ := Tool.ofField_eq_ok_iff.mp made
  obtain ⟨fields, encoded, admitted⟩ := exists_encode_of_follows named
    (named.rootFields field declared).2 acyclic follows schemaOk valid
  have compiled : schema.compile policy ⟨tool.name, arguments⟩ =
      .ok ⟨kind, field.name, fields, schema.selection policy 0 field.type⟩ := by
    rw [toolName]
    exact compile_eq_ok_iff.mpr
      ⟨kind, field, fields, rootField_of_mem once declared, encoded, rfl⟩
  refine ⟨_, _, _, compiled, Operation.read?_text (wellFormed_compile named compiled), admitted, ?_⟩
  intro avoids
  refine ⟨admitted.distinct, admitted.known, admitted.present, ?_⟩
  intro value included written writtenMember sameName
  exact (admitted.each value included written writtenMember sameName).of_avoidsEnums
    (avoids value included)

/-- The tool of a root field, where there are tools. -/
theorem exists_tool_of_isPlain (plain : schema.isPlain = true) {kind : OperationKind}
    {field : Field} (declared : field ∈ schema.rootFields kind) :
    ∃ tools tool, schema.tools = .ok tools ∧ tool ∈ tools ∧
      tool.name = ToolName.text ⟨kind, field.name⟩ ∧
      (schema.parameters field.arguments).toJson = .ok tool.inputSchema := by
  obtain ⟨tools, ok⟩ := exists_tools_of_isPlain plain
  obtain ⟨tool, member, made⟩ := exists_tool_of_mem_rootFields ok declared
  obtain ⟨toolName, _, schemaOk⟩ := Tool.ofField_eq_ok_iff.mp made
  exact ⟨tools, tool, ok, member, toolName, schemaOk⟩

/-- One argument that takes two input objects, a list and an enum. -/
theorem compile_of_validates_sample :
    ∃ schema tools tool,
      ofSource
          ("enum E { A B } input J { n: Int! } input I { kinds: [E!]!, inner: J } " ++
            "type Query { f(x: I!): Int }") = .ok schema ∧
        schema.tools = .ok tools ∧ tool ∈ tools ∧
        Json.Validates tool.inputSchema
          (.obj [("x", .obj [("kinds", .arr [.str "B", .str "A"]),
            ("inner", .obj [("n", .int 1)])])]) ∧
        ∃ operation,
          schema.compile .standard
              ⟨tool.name, [(.str "x", .map [(.str "kinds", .tuple [.str "B", .str "A"]),
                (.str "inner", .map [(.str "n", .int 1)])])]⟩ = .ok operation := by
  obtain ⟨schema, accepted, checked⟩ := Except.exists_eq_ok_of_any
    (ofSource
      ("enum E { A B } input J { n: Int! } input I { kinds: [E!]!, inner: J } " ++
        "type Query { f(x: I!): Int }"))
    (fun schema =>
      schema.isPlain &&
        schema.kind? "E" = some (.enum (some ["A", "B"])) &&
        schema.kind? "Int" = some .scalar &&
        schema.kind? "J" = some (.input [⟨"n", none, .named "Int" true, none⟩]) &&
        schema.kind? "I" =
          some (.input
            [⟨"kinds", none, .list (.named "E" true) true, none⟩,
              ⟨"inner", none, .named "J" false, none⟩]) &&
        schema.rootFields .query =
          [⟨"f", none, [⟨"x", none, .named "I" true, none⟩], .named "Int" false⟩])
    (by decide +kernel)
  simp only [Bool.and_eq_true, decide_eq_true_eq] at checked
  obtain ⟨⟨⟨⟨⟨plain, isEnum⟩, isScalar⟩, isInner⟩, isOuter⟩, roots⟩ := checked
  obtain ⟨tools, tool, ok, member, toolName, schemaOk⟩ :=
    exists_tool_of_isPlain plain (roots ▸ List.mem_singleton_self _)
  -- The argument conforms to its type, and so it is valid.
  have kinds : schema.Conforms (.list (.named "E" true) true) (.arr [.str "B", .str "A"]) :=
    .list true (by simpa using ⟨.enum true isEnum (by simp), .enum true isEnum (by simp)⟩)
  have inner : schema.Conforms (.named "J" false) (.obj [("n", .int 1)]) :=
    .input false isInner (by simp) (by simpa using .scalar true isScalar ⟨1, rfl⟩)
  have outer : schema.Conforms (.named "I" true)
      (.obj [("kinds", .arr [.str "B", .str "A"]), ("inner", .obj [("n", .int 1)])]) :=
    .input true isOuter (by simp [TypeRef.isRequired]) (by simpa using ⟨kinds, inner⟩)
  have conform : schema.ArgumentsConform [⟨"x", none, .named "I" true, none⟩]
      (.obj [("x", .obj [("kinds", .arr [.str "B", .str "A"]), ("inner", .obj [("n", .int 1)])])]) :=
    ⟨_, rfl, by simp, by simpa using outer⟩
  have valid := (Parameter.validates_toJson schemaOk).mpr (accepts_parameters_of_conform conform)
  -- It is on no cycle and uses declared names only.
  have acyclicInner : schema.IsAcyclic (.named "J" false) :=
    isAcyclic_of_fields isInner (by simpa using isAcyclic_of_kind isScalar (by simp))
  have acyclic : schema.IsAcyclic (.named "I" true) :=
    isAcyclic_of_fields isOuter
      (by simpa using ⟨isAcyclic_of_kind isEnum (by simp), acyclicInner⟩)
  have usesInner : schema.UsesDeclaredNames (.named "J" false) (.map [(.str "n", .int 1)]) :=
    .map false isInner (by simp) (by simpa using .single _ rfl)
  have usesKinds : schema.UsesDeclaredNames (.list (.named "E" true) true)
      (.tuple [.str "B", .str "A"]) := .tuple true (by simpa using ⟨.single _ rfl, .single _ rfl⟩)
  have usesOuter : schema.UsesDeclaredNames (.named "I" true)
      (.map [(.str "kinds", .tuple [.str "B", .str "A"]),
        (.str "inner", .map [(.str "n", .int 1)])]) :=
    .map true isOuter (by simp) (by simpa using ⟨usesKinds, usesInner⟩)
  have follows : schema.Follows [⟨"x", none, .named "I" true, none⟩]
      [(.str "x", .map [(.str "kinds", .tuple [.str "B", .str "A"]),
        (.str "inner", .map [(.str "n", .int 1)])])]
      [("x", .obj [("kinds", .arr [.str "B", .str "A"]), ("inner", .obj [("n", .int 1)])])] :=
    { json := rfl
      finite := by simp [Json.HasFiniteNumbers.int]
      distinct := by
        simp [Value.HasDistinctKeys, Value.EntriesHaveDistinctKeys, Value.AllHaveDistinctKeys]
      known := by simp
      each := by simpa using usesOuter }
  obtain ⟨operation, _, _, compiled, _⟩ :=
    compile_of_validates accepted .standard ok member (roots ▸ List.mem_singleton_self _) toolName
      (by simpa using acyclic) follows valid
  exact ⟨schema, tools, tool, accepted, ok, member, valid, operation, compiled⟩

/-- The name of an enum value is sent as the input schema asks for, and written as a text; the input
rules ask for the name itself. -/
theorem compile_without_enum_value :
    ∃ schema tools tool field operation selections,
      ofSource "enum E { A } type Query { f(x: E): Int }" = .ok schema ∧
        schema.tools = .ok tools ∧ tool ∈ tools ∧ field ∈ schema.rootFields .query ∧
        tool.name = ToolName.text ⟨.query, field.name⟩ ∧
        (∀ argument ∈ field.arguments, schema.IsAcyclic argument.type) ∧
        schema.Follows field.arguments [(.str "x", .str "A")] [("x", .str "A")] ∧
        Json.Validates tool.inputSchema (.obj [("x", .str "A")]) ∧
        schema.compile .standard ⟨tool.name, [(.str "x", .str "A")]⟩ = .ok operation ∧
        Executable.read? operation.text =
          some [.operation "query" none [] []
            [.field none field.name [("x", .str "A")] [] selections]] ∧
        ¬ AdmitsFields (schema.Admits .enum) field.arguments [("x", .str "A")] := by
  obtain ⟨schema, accepted, checked⟩ := Except.exists_eq_ok_of_any
    (ofSource "enum E { A } type Query { f(x: E): Int }")
    (fun schema =>
      schema.isPlain &&
        schema.kind? "E" = some (.enum (some ["A"])) &&
        schema.rootFields .query =
          [⟨"f", none, [⟨"x", none, .named "E" false, none⟩], .named "Int" false⟩])
    (by decide +kernel)
  simp only [Bool.and_eq_true, decide_eq_true_eq] at checked
  obtain ⟨⟨plain, isEnum⟩, roots⟩ := checked
  have declared := roots ▸ List.mem_singleton_self _
  obtain ⟨tools, tool, ok, member, toolName, schemaOk⟩ := exists_tool_of_isPlain plain declared
  have choice : schema.Conforms (.named "E" false) (.str "A") := .enum false isEnum (by simp)
  have valid := (Parameter.validates_toJson schemaOk).mpr
    (accepts_parameters_of_conform
      ⟨[("x", .str "A")], rfl, by simp [TypeRef.isRequired], by simpa using choice⟩)
  have reached := rootField_of_mem (declaresOnce_ofSource accepted) declared
  have compiled : schema.compile .standard ⟨tool.name, [(.str "x", .str "A")]⟩ =
      .ok ⟨.query, "f", [("x", .str "A")], schema.selection .standard 0 (.named "Int" false)⟩ := by
    rw [toolName]
    exact compile_eq_ok_iff.mpr ⟨.query, _, [("x", .str "A")], reached, rfl, rfl⟩
  have read := Operation.read?_text (wellFormed_compile (isNamed_ofSource accepted) compiled)
  refine ⟨schema, tools, tool, _, _, _, accepted, ok, member, declared, toolName, ?_, ?_, valid,
    compiled, read, ?_⟩
  · simpa using isAcyclic_of_kind isEnum (by simp)
  · exact
      { json := rfl
        finite := by simp
        distinct := by simp [Value.HasDistinctKeys, Value.EntriesHaveDistinctKeys]
        known := by simp
        each := by simpa using .single _ rfl }
  · intro admitted
    have literal : schema.Admits .enum (.named "E" false) (.str "A") := by
      simpa using admitted.each
    cases literal with
    | scalar _ kind _ => simp [isEnum] at kind
    | text _ noInput => exact absurd (noInput _ isEnum) (by simp [TypeKind.takesValues])

end GraphQL.Schema

end Toolsmith

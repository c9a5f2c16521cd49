import Toolsmith.Json.Basic

/-!
Validity of JSON values against JSON Schemas, as far as the keywords `type`, `enum`, `items`,
`properties` and `required` go. Other keywords say nothing, and a keyword says nothing of a value of
another type than the one it is about.
-/

set_option autoImplicit false

namespace Toolsmith.Json

/-- The types of JSON Schema. Integers and floating-point numbers are told apart as they are
written, and both are numbers. -/
def hasType : String → Json → Bool
  | "null", .null => true
  | "boolean", .bool _ => true
  | "integer", .int _ => true
  | "number", .int _ => true
  | "number", .float _ => true
  | "string", .str _ => true
  | "array", .arr _ => true
  | "object", .obj _ => true
  | _, _ => false

/-- The items of an array; none for any other value. -/
def items : Json → List Json
  | .arr items => items
  | _ => []

/-- The members of an object; none for any other value. -/
def members : Json → List (String × Json)
  | .obj members => members
  | _ => []

/-- A value is valid against a schema: it meets what each keyword among the schema's members asks.
Members of other names ask nothing. -/
inductive Validates : Json → Json → Prop
  | schema {assertions : List (String × Json)} {value : Json}
      (type : ∀ type, ("type", .str type) ∈ assertions → value.hasType type = true)
      (enum : ∀ values, ("enum", .arr values) ∈ assertions → value ∈ values)
      (items : ∀ schema, ("items", schema) ∈ assertions →
        ∀ item ∈ value.items, Validates schema item)
      (properties : ∀ properties, ("properties", .obj properties) ∈ assertions →
        ∀ property ∈ properties, ∀ member ∈ value.members,
          member.1 = property.1 → Validates property.2 member.2)
      (required : ∀ names, ("required", .arr names) ∈ assertions →
        ∀ members, value = .obj members →
          ∀ name, .str name ∈ names → name ∈ members.map Prod.fst) :
      Validates (.obj assertions) value

variable {value : Json}

theorem validates_iff {assertions : List (String × Json)} :
    Validates (.obj assertions) value ↔
      (∀ type, ("type", .str type) ∈ assertions → value.hasType type = true) ∧
        (∀ values, ("enum", .arr values) ∈ assertions → value ∈ values) ∧
        (∀ schema, ("items", schema) ∈ assertions →
          ∀ item ∈ value.items, Validates schema item) ∧
        (∀ properties, ("properties", .obj properties) ∈ assertions →
          ∀ property ∈ properties, ∀ member ∈ value.members,
            member.1 = property.1 → Validates property.2 member.2) ∧
        ∀ names, ("required", .arr names) ∈ assertions →
          ∀ members, value = .obj members →
            ∀ name, .str name ∈ names → name ∈ members.map Prod.fst := by
  constructor
  · rintro ⟨type, enum, items, properties, required⟩
    exact ⟨type, enum, items, properties, required⟩
  · rintro ⟨type, enum, items, properties, required⟩
    exact .schema type enum items properties required

/-! The values of a type. -/

theorem hasType_string : value.hasType "string" = true ↔ ∃ text, value = .str text := by
  cases value with
  | str text => exact iff_of_true rfl ⟨text, rfl⟩
  | _ => exact iff_of_false Bool.false_ne_true nofun

theorem hasType_array : value.hasType "array" = true ↔ ∃ items, value = .arr items := by
  cases value with
  | arr items => exact iff_of_true rfl ⟨items, rfl⟩
  | _ => exact iff_of_false Bool.false_ne_true nofun

theorem hasType_object : value.hasType "object" = true ↔ ∃ members, value = .obj members := by
  cases value with
  | obj members => exact iff_of_true rfl ⟨members, rfl⟩
  | _ => exact iff_of_false Bool.false_ne_true nofun

theorem hasType_integer : value.hasType "integer" = true ↔ ∃ number, value = .int number := by
  cases value with
  | int number => exact iff_of_true rfl ⟨number, rfl⟩
  | _ => exact iff_of_false Bool.false_ne_true nofun

theorem hasType_boolean : value.hasType "boolean" = true ↔ ∃ truth, value = .bool truth := by
  cases value with
  | bool truth => exact iff_of_true rfl ⟨truth, rfl⟩
  | _ => exact iff_of_false Bool.false_ne_true nofun

theorem hasType_number :
    value.hasType "number" = true ↔ (∃ number, value = .int number) ∨ ∃ x, value = .float x := by
  cases value with
  | int number => exact iff_of_true rfl (.inl ⟨number, rfl⟩)
  | float x => exact iff_of_true rfl (.inr ⟨x, rfl⟩)
  | _ => exact iff_of_false Bool.false_ne_true (by simp)

end Toolsmith.Json

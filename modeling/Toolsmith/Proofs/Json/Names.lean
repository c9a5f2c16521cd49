import Toolsmith.GraphQL.Name
import Toolsmith.Json.Basic

/-!
Values whose objects have names for keys, at every depth.
-/

set_option autoImplicit false

namespace Toolsmith.Json

/-- A value is another one, or stands somewhere inside it. -/
inductive Within (inner : Json) : Json → Prop
  | here : Within inner inner
  | item {items : List Json} {item : Json} (member : item ∈ items) (further : Within inner item) :
      Within inner (.arr items)
  | member {members : List (String × Json)} {member : String × Json} (included : member ∈ members)
      (further : Within inner member.2) : Within inner (.obj members)

mutual

/-- Whether all keys of all objects in a value are names. -/
def hasNames : Json → Bool
  | .arr items => allHaveNames items
  | .obj members => membersHaveNames members
  | _ => true

def allHaveNames : List Json → Bool
  | [] => true
  | item :: rest => item.hasNames && allHaveNames rest

def membersHaveNames : List (String × Json) → Bool
  | [] => true
  | (key, value) :: rest => GraphQL.isName key && value.hasNames && membersHaveNames rest

end

@[simp]
theorem hasNames_arr {items : List Json} :
    (arr items).hasNames = true ↔ ∀ item ∈ items, item.hasNames = true := by
  rw [hasNames]
  induction items with
  | nil => simp [allHaveNames]
  | cons item rest inductionHypothesis => simp [allHaveNames, inductionHypothesis]

@[simp]
theorem hasNames_obj {members : List (String × Json)} :
    (obj members).hasNames = true ↔
      ∀ member ∈ members, GraphQL.isName member.1 = true ∧ member.2.hasNames = true := by
  rw [hasNames]
  induction members with
  | nil => simp [membersHaveNames]
  | cons member rest inductionHypothesis => simp [membersHaveNames, inductionHypothesis]

@[simp]
theorem hasNames_str (value : String) : (str value).hasNames = true :=
  rfl

/-- Every object inside has names for keys. -/
theorem isName_of_within {json : Json} {members : List (String × Json)}
    (named : json.hasNames = true) (within : Within (.obj members) json) :
    ∀ member ∈ members, GraphQL.isName member.1 = true := by
  induction within with
  | here => exact fun member included => (hasNames_obj.mp named member included).1
  | item member _ inductionHypothesis =>
      exact inductionHypothesis (hasNames_arr.mp named _ member)
  | member included _ inductionHypothesis =>
      exact inductionHypothesis (hasNames_obj.mp named _ included).2

end Toolsmith.Json

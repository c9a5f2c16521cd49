import Toolsmith.Number.Double

/-!
JSON values. The members of an object keep their order. Numbers are integers of any size or
floating-point numbers, infinities and NaN included.
-/

set_option autoImplicit false

namespace Toolsmith

inductive Json where
  | null
  | bool (value : Bool)
  | int (value : Int)
  | float (value : Double)
  | str (value : String)
  | arr (items : List Json)
  | obj (members : List (String × Json))
deriving Repr, Inhabited

namespace Json

mutual

def decideEq : (first second : Json) → Decidable (first = second)
  | .null, second =>
    match second with
    | .null => isTrue rfl
    | .bool _ | .int _ | .float _ | .str _ | .arr _ | .obj _ => isFalse nofun
  | .bool value, second =>
    match second with
    | .bool other => decidable_of_iff (value = other) (by simp)
    | .null | .int _ | .float _ | .str _ | .arr _ | .obj _ => isFalse nofun
  | .int value, second =>
    match second with
    | .int other => decidable_of_iff (value = other) (by simp)
    | .null | .bool _ | .float _ | .str _ | .arr _ | .obj _ => isFalse nofun
  | .float value, second =>
    match second with
    | .float other => decidable_of_iff (value = other) (by simp)
    | .null | .bool _ | .int _ | .str _ | .arr _ | .obj _ => isFalse nofun
  | .str value, second =>
    match second with
    | .str other => decidable_of_iff (value = other) (by simp)
    | .null | .bool _ | .int _ | .float _ | .arr _ | .obj _ => isFalse nofun
  | .arr items, second =>
    match second with
    | .arr others =>
      match decideItemsEq items others with
      | isTrue same => isTrue (congrArg arr same)
      | isFalse different => isFalse fun h => different (Json.arr.inj h)
    | .null | .bool _ | .int _ | .float _ | .str _ | .obj _ => isFalse nofun
  | .obj members, second =>
    match second with
    | .obj others =>
      match decideMembersEq members others with
      | isTrue same => isTrue (congrArg obj same)
      | isFalse different => isFalse fun h => different (Json.obj.inj h)
    | .null | .bool _ | .int _ | .float _ | .str _ | .arr _ => isFalse nofun

def decideItemsEq : (first second : List Json) → Decidable (first = second)
  | [], [] => isTrue rfl
  | [], _ :: _ => isFalse nofun
  | _ :: _, [] => isFalse nofun
  | item :: rest, other :: others =>
    match decideEq item other with
    | isFalse different => isFalse fun h => different (List.cons.inj h).1
    | isTrue same =>
      match decideItemsEq rest others with
      | isFalse different => isFalse fun h => different (List.cons.inj h).2
      | isTrue allSame => isTrue (by rw [same, allSame])

def decideMembersEq : (first second : List (String × Json)) → Decidable (first = second)
  | [], [] => isTrue rfl
  | [], _ :: _ => isFalse nofun
  | _ :: _, [] => isFalse nofun
  | (key, value) :: rest, (otherKey, other) :: others =>
    if sameKey : key = otherKey then
      match decideEq value other with
      | isFalse different => isFalse fun h => different (Prod.mk.inj (List.cons.inj h).1).2
      | isTrue same =>
        match decideMembersEq rest others with
        | isFalse different => isFalse fun h => different (List.cons.inj h).2
        | isTrue allSame => isTrue (by rw [sameKey, same, allSame])
    else isFalse fun h => sameKey (Prod.mk.inj (List.cons.inj h).1).1

end

instance : DecidableEq Json := decideEq

def isObject : Json → Bool
  | .obj _ => true
  | _ => false

/-- The member of an object under a key. -/
def member? (key : String) : Json → Option Json
  | .obj members => members.lookup key
  | _ => none

/-- The count of items, members or characters of a value that is made of them. -/
def size? : Json → Option Nat
  | .str value => some value.length
  | .arr items => some items.length
  | .obj members => some members.length
  | _ => none

/-- Sets a member. A key that is there already keeps its place and takes the new value. -/
def put (key : String) (value : Json) : List (String × Json) → List (String × Json)
  | [] => [(key, value)]
  | member :: rest =>
    if member.1 = key then (key, value) :: rest else member :: put key value rest

theorem keys_put (key : String) (value : Json) (members : List (String × Json)) :
    (put key value members).map Prod.fst =
      if key ∈ members.map Prod.fst then members.map Prod.fst
      else members.map Prod.fst ++ [key] := by
  induction members with
  | nil => simp [put]
  | cons member rest inductionHypothesis =>
    by_cases same : member.1 = key
    · simp [put, same]
    · have other : ¬ key = member.1 := fun h => same h.symm
      simp only [put, same, if_false, List.map_cons, inductionHypothesis, List.mem_cons, other,
        false_or]
      split <;> simp

end Json

end Toolsmith

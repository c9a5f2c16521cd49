import Toolsmith.Number.Integer
import Toolsmith.Number.Shortest
import Toolsmith.Text.Quoted

/-!
Keys of maps, and when two of them name the same entry.
-/

set_option autoImplicit false

namespace Toolsmith

/-- Keys of a map; only a text can name a field. -/
inductive Key where
  | null
  | bool (value : Bool)
  | int (value : Int)
  | float (value : Double)
  | str (value : String)
  | tuple (items : List Key)
  | foreign (typeName : String)
deriving Repr, Inhabited

namespace Key

mutual

def decideEq : (first second : Key) → Decidable (first = second)
  | .null, second =>
    match second with
    | .null => isTrue rfl
    | .bool _ | .int _ | .float _ | .str _ | .tuple _ | .foreign _ => isFalse nofun
  | .bool value, second =>
    match second with
    | .bool other => decidable_of_iff (value = other) (by simp)
    | .null | .int _ | .float _ | .str _ | .tuple _ | .foreign _ => isFalse nofun
  | .int value, second =>
    match second with
    | .int other => decidable_of_iff (value = other) (by simp)
    | .null | .bool _ | .float _ | .str _ | .tuple _ | .foreign _ => isFalse nofun
  | .float value, second =>
    match second with
    | .float other => decidable_of_iff (value = other) (by simp)
    | .null | .bool _ | .int _ | .str _ | .tuple _ | .foreign _ => isFalse nofun
  | .str value, second =>
    match second with
    | .str other => decidable_of_iff (value = other) (by simp)
    | .null | .bool _ | .int _ | .float _ | .tuple _ | .foreign _ => isFalse nofun
  | .tuple items, second =>
    match second with
    | .tuple others =>
      match decideAllEq items others with
      | isTrue same => isTrue (congrArg tuple same)
      | isFalse other => isFalse fun h => other (Key.tuple.inj h)
    | .null | .bool _ | .int _ | .float _ | .str _ | .foreign _ => isFalse nofun
  | .foreign typeName, second =>
    match second with
    | .foreign other => decidable_of_iff (typeName = other) (by simp)
    | .null | .bool _ | .int _ | .float _ | .str _ | .tuple _ => isFalse nofun

def decideAllEq : (first second : List Key) → Decidable (first = second)
  | [], [] => isTrue rfl
  | [], _ :: _ => isFalse nofun
  | _ :: _, [] => isFalse nofun
  | item :: rest, other :: others =>
    match decideEq item other with
    | isFalse different => isFalse fun h => different (List.cons.inj h).1
    | isTrue same =>
      match decideAllEq rest others with
      | isFalse different => isFalse fun h => different (List.cons.inj h).2
      | isTrue allSame => isTrue (by rw [same, allSame])

end

instance : DecidableEq Key := decideEq

mutual

/-- A key as it is quoted in a message. -/
def quoted : Key → String
  | .null => "None"
  | .bool true => "True"
  | .bool false => "False"
  | .int value => String.ofList (Integer.write value)
  | .float value => String.ofList value.text
  | .str value => Text.quoted value
  | .tuple [item] => "(" ++ item.quoted ++ ",)"
  | .tuple items => "(" ++ ", ".intercalate (allQuoted items) ++ ")"
  | .foreign typeName => "<" ++ typeName ++ " object>"

def allQuoted : List Key → List String
  | [] => []
  | item :: rest => item.quoted :: allQuoted rest

end

/-- The number a key is, counted in the least floating-point number above zero. True and false count
as one and zero. -/
def number? : Key → Option Int
  | .bool value => some (if value then Nat.pow 2 1074 else 0)
  | .int value => some (value * Nat.pow 2 1074)
  | .float (.finite negative significand exponent _) =>
    let magnitude := significand * Nat.pow 2 (exponent + 1074).toNat
    some (if negative then -magnitude else magnitude)
  | _ => none

mutual

/-- Whether two keys name the same entry: numbers do if they are equal, of whatever type they are,
and tuples if their items do. NaN and a value of a foreign type name an entry of their own each
time. -/
def isSame : Key → Key → Bool
  | .float .nan, _ => false
  | .foreign _, _ => false
  | .tuple items, .tuple others => areSame items others
  | first, second =>
    match first.number?, second.number? with
    | some m, some n => m == n
    | _, _ => first == second

def areSame : List Key → List Key → Bool
  | [], [] => true
  | item :: rest, other :: others => item.isSame other && areSame rest others
  | _, _ => false

end

end Key

end Toolsmith

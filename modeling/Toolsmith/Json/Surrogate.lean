import Toolsmith.Json.Reader
import Toolsmith.Text.Quoted

/-!
Surrogates in JSON text. An escape may name one half of a surrogate pair alone. No character is meant
by it, and yet it is JSON text; to read it, some character has to stand in for the surrogate. What
is the same whatever stands in for them is not made of surrogates.
-/

set_option autoImplicit false

namespace Toolsmith.Json

open Text.StringLiteral (readEscape readUnit length_readEscape length_readUnit)

namespace Surrogate

/-- A stand-in of its own for each surrogate. -/
def ownStandIn (unit : Nat) : Char :=
  Char.ofNat (unit + 0x102000)

/-- One stand-in for all surrogates, which is none of those that they have on their own. -/
def commonStandIn (_ : Nat) : Char :=
  '\ufffd'

/-- The code points of a text that was read with both kinds of stand-ins: where the readings differ
there is a surrogate, and its own stand-in tells which one. -/
def pointsOf : List Char → List Char → List Text.CodePoint
  | own :: rest, common :: others =>
    (if own = common then .char own else .surrogate (own.toNat - 0x102000)) :: pointsOf rest others
  | _, _ => []

/-- The unit that is named after a backslash, if it is one unit, and what follows it. -/
def readLone : List Char → Option (Nat × List Char)
  | 'u' :: rest => readUnit rest
  | _ => none

theorem length_readLone {text rest : List Char} {unit : Nat}
    (h : readLone text = some (unit, rest)) : rest.length < text.length := by
  unfold readLone at h
  split at h
  · exact Nat.lt_succ_of_lt (length_readUnit h)
  · contradiction

/-- Puts stand-ins in the places of surrogates: an escape that names a unit and no character names
half of a pair. All other escapes are left as they are. -/
def fillChars (standIn : Nat → Char) (text : List Char) : List Char :=
  match text with
  | [] => []
  | '\\' :: rest =>
    match _ : readEscape Token.stringDialect rest with
    | some (_, after) =>
      '\\' :: rest.take (rest.length - after.length) ++ fillChars standIn after
    | none =>
      match _ : readLone rest with
      | some (unit, after) => standIn unit :: fillChars standIn after
      | none => '\\' :: fillChars standIn rest
  | c :: rest => c :: fillChars standIn rest
termination_by text.length
decreasing_by
  · exact Nat.lt_succ_of_lt (length_readEscape (by assumption))
  · exact Nat.lt_succ_of_lt (length_readLone (by assumption))
  · simp
  · simp

def fill (standIn : Nat → Char) (text : String) : String :=
  String.ofList (fillChars standIn text.toList)

end Surrogate

end Toolsmith.Json

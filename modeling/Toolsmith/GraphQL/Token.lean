import Toolsmith.Bracketed
import Toolsmith.GraphQL.BlockString
import Toolsmith.GraphQL.Name
import Toolsmith.Number.Numeral
import Toolsmith.Text.StringLiteral

/-!
Tokens of the GraphQL grammar. White space, commas, line breaks, byte order marks and comments stand
between tokens and mean nothing.
-/

set_option autoImplicit false

namespace Toolsmith.GraphQL

inductive Punctuator where
  | bang
  | dollar
  | ampersand
  | spread
  | colon
  | equals
  | atSign
  | bar
deriving DecidableEq, Repr

inductive Token where
  | mark (punctuator : Punctuator)
  | name (text : String)
  | int (value : Int)
  | float (value : Decimal)
  | str (value : String)
deriving DecidableEq, Repr

namespace Token

def isSkipped (c : Char) : Bool :=
  [' ', '\t', ',', '\n', '\r', '\uFEFF'].contains c

def isLineEnd (c : Char) : Bool :=
  c == '\n' || c == '\r'

/-- Only line breaks cannot stand in a string; a code point may be written between braces. -/
def stringDialect : Text.StringLiteral.Dialect :=
  { mustEscape := isLineEnd, bracedEscapes := true }

def ofNumeral : Numeral → Token
  | .integer value => .int value
  | .decimal value => .float value

/-- A number must not run into a name, a point or another digit. -/
def endsNumber : List Char → Bool
  | [] => true
  | c :: _ => !(isNameContinue c || c == '.')

def readNumber (text : List Char) : Option (Piece Token × List Char) :=
  match Numeral.read text with
  | some (numeral, rest) => if endsNumber rest then some (.token (ofNumeral numeral), rest) else none
  | none => none

def readName (first : Char) (rest : List Char) : Piece Token × List Char :=
  (.token (.name (String.ofList (first :: rest.takeWhile isNameContinue))),
    rest.dropWhile isNameContinue)

/-- Reads the piece at the front of a text that starts with neither white space nor a comment. -/
def readPiece : List Char → Option (Piece Token × List Char)
  | '!' :: rest => some (.token (.mark .bang), rest)
  | '$' :: rest => some (.token (.mark .dollar), rest)
  | '&' :: rest => some (.token (.mark .ampersand), rest)
  | '.' :: '.' :: '.' :: rest => some (.token (.mark .spread), rest)
  | ':' :: rest => some (.token (.mark .colon), rest)
  | '=' :: rest => some (.token (.mark .equals), rest)
  | '@' :: rest => some (.token (.mark .atSign), rest)
  | '|' :: rest => some (.token (.mark .bar), rest)
  | '(' :: rest => some (.opening .round, rest)
  | ')' :: rest => some (.closing .round, rest)
  | '[' :: rest => some (.opening .square, rest)
  | ']' :: rest => some (.closing .square, rest)
  | '{' :: rest => some (.opening .curly, rest)
  | '}' :: rest => some (.closing .curly, rest)
  | '"' :: '"' :: '"' :: rest =>
    (BlockString.read rest).map fun (content, rest) =>
      (.token (.str (String.ofList content)), rest)
  | '"' :: rest =>
    (Text.StringLiteral.read stringDialect rest).map fun (content, rest) =>
      (.token (.str (String.ofList content)), rest)
  | c :: rest => if isNameStart c then some (readName c rest) else readNumber (c :: rest)
  | [] => none

theorem length_readPiece {text rest : List Char} {piece : Piece Token}
    (h : readPiece text = some (piece, rest)) : rest.length < text.length := by
  unfold readPiece at h
  split at h
  case h_15 =>
    simp only [Option.map_eq_some_iff, Prod.mk.injEq] at h
    obtain ⟨⟨content, left⟩, taken, _, rfl⟩ := h
    have shorter := BlockString.length_read taken
    simp only [List.length_cons]
    omega
  case h_16 =>
    simp only [Option.map_eq_some_iff, Prod.mk.injEq] at h
    obtain ⟨⟨content, left⟩, taken, _, rfl⟩ := h
    exact Nat.lt_succ_of_lt (Text.StringLiteral.length_read taken)
  case h_17 =>
    split at h
    · simp only [readName, Option.some.injEq, Prod.mk.injEq] at h
      rw [← h.2]
      exact Nat.lt_succ_of_le (List.dropWhile_sublist _).length_le
    · unfold readNumber at h
      split at h
      · rename_i taken
        have shorter := Numeral.length_read taken
        split at h
        · simp only [Option.some.injEq, Prod.mk.injEq] at h
          exact h.2 ▸ shorter
        · contradiction
      · contradiction
  case h_18 => contradiction
  all_goals
    simp only [Option.some.injEq, Prod.mk.injEq] at h
    simp only [← h.2, List.length_cons]
    omega

/-- The pieces of a text, without what stands between them. -/
def pieces? (text : List Char) : Option (List (Piece Token)) :=
  match text with
  | [] => some []
  | c :: rest =>
    if isSkipped c then pieces? rest
    else if c = '#' then pieces? (rest.dropWhile fun c => !isLineEnd c)
    else
      match _ : readPiece (c :: rest) with
      | none => none
      | some (piece, after) => (pieces? after).map (piece :: ·)
termination_by text.length
decreasing_by
  · simp
  · exact Nat.lt_succ_of_le (List.dropWhile_sublist _).length_le
  · exact length_readPiece (by assumption)

/-- The trees of a text whose tokens are all well-formed and whose brackets match. -/
def trees? (text : String) : Option (List (Tree Token)) :=
  (pieces? text.toList).bind Tree.ofPieces?

/-- How deep the brackets of one type or of one literal may be nested. -/
def maxDepth : Nat := 200

end Token

end Toolsmith.GraphQL

namespace Toolsmith.Tree

open GraphQL (Token Punctuator)

@[match_pattern] abbrev mark (punctuator : Punctuator) : Tree Token :=
  .leaf (.mark punctuator)

@[match_pattern] abbrev name (text : String) : Tree Token :=
  .leaf (.name text)

end Toolsmith.Tree

import Toolsmith.Bracketed
import Toolsmith.Json.Basic
import Toolsmith.Number.Numeral
import Toolsmith.Text.StringLiteral

/-!
Reading JSON text. The text is cut into pieces, the pieces are nested by their brackets, and the
trees are read as values. A key that is repeated in an object keeps its first place and its last
value. Beside the numbers of the format the words `NaN`, `Infinity` and `-Infinity` are read.
-/

set_option autoImplicit false

namespace Toolsmith.Json

inductive Token where
  | comma
  | colon
  | scalar (value : Json)

namespace Token

def isSkipped (c : Char) : Bool :=
  c == ' ' || c == '\t' || c == '\n' || c == '\r'

/-- Controls must be escaped, and a code point is written in units of UTF-16. -/
def stringDialect : Text.StringLiteral.Dialect :=
  { mustEscape := fun c => c.toNat < 0x20, bracedEscapes := false }

def words : List (List Char × Json) :=
  [("null".toList, .null), ("true".toList, .bool true), ("false".toList, .bool false),
    ("NaN".toList, .float .nan), ("Infinity".toList, .float (.infinite false)),
    ("-Infinity".toList, .float (.infinite true))]

def ofNumeral : Numeral → Token
  | .integer value => .scalar (.int value)
  | .decimal value => .scalar (.float (.ofDecimal value))

def readWord (text : List Char) : Option (Token × List Char) :=
  (words.find? fun word => word.1.isPrefixOf text).map fun (word, value) =>
    (.scalar value, text.drop word.length)

/-- Reads the piece at the front of a text that does not start with a blank. -/
def readPiece : List Char → Option (Piece Token × List Char)
  | '[' :: rest => some (.opening .square, rest)
  | ']' :: rest => some (.closing .square, rest)
  | '{' :: rest => some (.opening .curly, rest)
  | '}' :: rest => some (.closing .curly, rest)
  | ',' :: rest => some (.token .comma, rest)
  | ':' :: rest => some (.token .colon, rest)
  | '"' :: rest =>
    (Text.StringLiteral.read stringDialect rest).map fun (content, rest) =>
      (.token (.scalar (.str (String.ofList content))), rest)
  | text =>
    match readWord text with
    | some (token, rest) => some (.token token, rest)
    | none => (Numeral.read text).map fun (numeral, rest) => (.token (ofNumeral numeral), rest)

theorem length_readWord {text rest : List Char} {token : Token}
    (h : readWord text = some (token, rest)) : rest.length < text.length := by
  simp only [readWord, Option.map_eq_some_iff, Prod.mk.injEq] at h
  obtain ⟨⟨word, value⟩, found, _, rfl⟩ := h
  have member := List.mem_of_find?_eq_some found
  have fits : word <+: text := by simpa using List.find?_some found
  have nonempty : 0 < word.length := by
    simp only [words, List.mem_cons, Prod.mk.injEq, List.not_mem_nil, or_false] at member
    rcases member with h | h | h | h | h | h <;> (rw [h.1]; decide)
  have := fits.length_le
  simp only [List.length_drop]
  omega

theorem length_readPiece {text rest : List Char} {piece : Piece Token}
    (h : readPiece text = some (piece, rest)) : rest.length < text.length := by
  unfold readPiece at h
  split at h
  case h_7 =>
    simp only [Option.map_eq_some_iff, Prod.mk.injEq] at h
    obtain ⟨⟨content, left⟩, taken, _, rfl⟩ := h
    exact Nat.lt_succ_of_lt (Text.StringLiteral.length_read taken)
  case h_8 =>
    split at h
    · rename_i taken
      simp only [Option.some.injEq, Prod.mk.injEq] at h
      exact h.2 ▸ length_readWord taken
    · simp only [Option.map_eq_some_iff, Prod.mk.injEq] at h
      obtain ⟨⟨numeral, left⟩, taken, _, rfl⟩ := h
      exact Numeral.length_read taken
  all_goals
    simp only [Option.some.injEq, Prod.mk.injEq] at h
    simp [← h.2]

/-- The pieces of a text, blanks left out. -/
def pieces? (text : List Char) : Option (List (Piece Token)) :=
  match text with
  | [] => some []
  | c :: rest =>
    if isSkipped c then pieces? rest
    else
      match _ : readPiece (c :: rest) with
      | none => none
      | some (piece, after) => (pieces? after).map (piece :: ·)
termination_by text.length
decreasing_by
  · simp
  · exact length_readPiece (by assumption)

end Token

mutual

def ofTree? : Tree Token → Option Json
  | .leaf (.scalar value) => some value
  | .group .square members => (items? members).map .arr
  | .group .curly members => (members? members).map .obj
  | _ => none

def items? : List (Tree Token) → Option (List Json)
  | [] => some []
  | item :: rest => do
    let value ← ofTree? item
    let values ← moreItems? rest
    return value :: values

def moreItems? : List (Tree Token) → Option (List Json)
  | [] => some []
  | .leaf .comma :: item :: rest => do
    let value ← ofTree? item
    let values ← moreItems? rest
    return value :: values
  | _ => none

def members? : List (Tree Token) → Option (List (String × Json))
  | [] => some []
  | .leaf (.scalar (.str key)) :: .leaf .colon :: item :: rest => do
    let value ← ofTree? item
    moreMembers? [(key, value)] rest
  | _ => none

/-- The members after those in `before`, which a repeated key changes. -/
def moreMembers? (before : List (String × Json)) :
    List (Tree Token) → Option (List (String × Json))
  | [] => some before
  | .leaf .comma :: .leaf (.scalar (.str key)) :: .leaf .colon :: item :: rest => do
    let value ← ofTree? item
    moreMembers? (put key value before) rest
  | _ => none

end

/-- Reads a text that holds one value and nothing else. -/
def read? (text : String) : Option Json := do
  let pieces ← Token.pieces? text.toList
  match ← Tree.ofPieces? pieces with
  | [tree] => ofTree? tree
  | _ => none

end Toolsmith.Json

import Toolsmith.Text.Split

/-!
Block strings, between three quotes on either side. Their lines lose the indentation that all but
the first have in common, and blank lines at both ends are dropped.
-/

set_option autoImplicit false

namespace Toolsmith.GraphQL.BlockString

/-- Reads what follows the opening quotes: the text as it is written and what is left. Only the
closing quotes can be escaped, by a backslash before them. -/
def readRaw : List Char → Option (List Char × List Char)
  | [] => none
  | '"' :: '"' :: '"' :: rest => some ([], rest)
  | '\\' :: '"' :: '"' :: '"' :: rest =>
    (readRaw rest).map fun (content, left) => ('"' :: '"' :: '"' :: content, left)
  | c :: rest => (readRaw rest).map fun (content, left) => (c :: content, left)

/-- The parts between line breaks, which are LF, CR and CR LF. -/
def lines : List Char → List (List Char)
  | [] => [[]]
  | '\r' :: '\n' :: rest => [] :: lines rest
  | '\r' :: rest => [] :: lines rest
  | '\n' :: rest => [] :: lines rest
  | c :: rest => Text.consFirst c (lines rest)

def isIndent (c : Char) : Bool :=
  c == ' ' || c == '\t'

def isBlankLine (line : List Char) : Bool :=
  line.all isIndent

def indentOf (line : List Char) : Nat :=
  (line.takeWhile isIndent).length

/-- The least indentation of the lines that are not blank. -/
def commonIndent (lines : List (List Char)) : Nat :=
  (((lines.filter fun line => !isBlankLine line).map indentOf).min?).getD 0

def trimLines (lines : List (List Char)) : List (List Char) :=
  ((lines.dropWhile isBlankLine).reverse.dropWhile isBlankLine).reverse

/-- The value of a block string with a given text between its quotes. -/
def value (raw : List Char) : List Char :=
  match lines raw with
  | [] => []
  | first :: rest =>
    let indent := commonIndent rest
    List.intercalate ['\n'] (trimLines (first :: rest.map (List.drop indent)))

def read (text : List Char) : Option (List Char × List Char) :=
  (readRaw text).map fun (raw, left) => (value raw, left)

theorem length_readRaw {text content rest : List Char}
    (h : readRaw text = some (content, rest)) : rest.length < text.length := by
  fun_induction readRaw text generalizing content with
  | case1 => contradiction
  | case2 =>
    simp only [Option.some.injEq, Prod.mk.injEq] at h
    simp only [← h.2, List.length_cons]
    omega
  | case3 text inductionHypothesis =>
    simp only [Option.map_eq_some_iff, Prod.mk.injEq] at h
    obtain ⟨⟨inner, left⟩, found, _, rfl⟩ := h
    have shorter : left.length < text.length := inductionHypothesis found
    simp only [List.length_cons]
    omega
  | case4 c text _ _ inductionHypothesis =>
    simp only [Option.map_eq_some_iff, Prod.mk.injEq] at h
    obtain ⟨⟨inner, left⟩, found, _, rfl⟩ := h
    exact Nat.lt_succ_of_lt (inductionHypothesis found)

theorem length_read {text content rest : List Char}
    (h : read text = some (content, rest)) : rest.length < text.length := by
  simp only [read, Option.map_eq_some_iff, Prod.mk.injEq] at h
  obtain ⟨⟨raw, left⟩, found, _, rfl⟩ := h
  exact length_readRaw found

end Toolsmith.GraphQL.BlockString

import Toolsmith.Text.Hex

/-!
String literals between double quotes, as JSON and GraphQL write them. Both share the escapes after
a backslash; they differ in which characters may stand for themselves, and GraphQL has an escape
with a code point between braces as well.
-/

set_option autoImplicit false

namespace Toolsmith.Text

namespace StringLiteral

/-- Which characters, beside the quote and the backslash, must be escaped, and whether a code point
may be written between braces. -/
structure Dialect where
  mustEscape : Char → Bool
  bracedEscapes : Bool

def escapedChar (c : Char) : List Char :=
  if c = '"' then ['\\', '"']
  else if c = '\\' then ['\\', '\\']
  else if c = '\n' then ['\\', 'n']
  else if c = '\r' then ['\\', 'r']
  else if c = '\t' then ['\\', 't']
  else if c = '\x08' then ['\\', 'b']
  else if c = '\x0c' then ['\\', 'f']
  else if c.toNat < 0x20 then '\\' :: 'u' :: hexPadded 4 c.toNat
  else [c]

/-- A literal that both dialects read; only controls, quotes and backslashes are escaped. -/
def write (content : List Char) : List Char :=
  '"' :: content.flatMap escapedChar ++ ['"']

/-- Four hexadecimal digits, which are one unit of UTF-16. -/
def readUnit : List Char → Option (Nat × List Char)
  | a :: b :: c :: d :: rest => (hexNumber? [a, b, c, d]).map fun unit => (unit, rest)
  | _ => none

def isLeadingSurrogate (unit : Nat) : Bool :=
  0xD800 ≤ unit && unit < 0xDC00

def isTrailingSurrogate (unit : Nat) : Bool :=
  0xDC00 ≤ unit && unit < 0xE000

/-- After `\u`: one unit, or two units that are a surrogate pair. -/
def readUnits (text : List Char) : Option (Char × List Char) :=
  match readUnit text with
  | none => none
  | some (leading, rest) =>
    if isLeadingSurrogate leading then
      match rest with
      | '\\' :: 'u' :: rest =>
        match readUnit rest with
        | none => none
        | some (trailing, rest) =>
          if isTrailingSurrogate trailing then
            (scalar? (0x10000 + (leading - 0xD800) * 0x400 + (trailing - 0xDC00))).map (·, rest)
          else none
      | _ => none
    else (scalar? leading).map (·, rest)

/-- After the opening brace: up to eight hexadecimal digits and the closing brace. -/
def readBraced (text : List Char) : Option (Char × List Char) :=
  let digits := text.takeWhile fun c => (hexValue? c).isSome
  match text.dropWhile fun c => (hexValue? c).isSome with
  | '}' :: rest =>
    if 1 ≤ digits.length ∧ digits.length ≤ 8 then
      ((hexNumber? digits).bind scalar?).map (·, rest)
    else none
  | _ => none

/-- What follows a backslash: the character that is meant, and the rest of the text. -/
def readEscape (dialect : Dialect) : List Char → Option (Char × List Char)
  | '"' :: rest => some ('"', rest)
  | '\\' :: rest => some ('\\', rest)
  | '/' :: rest => some ('/', rest)
  | 'b' :: rest => some ('\x08', rest)
  | 'f' :: rest => some ('\x0c', rest)
  | 'n' :: rest => some ('\n', rest)
  | 'r' :: rest => some ('\r', rest)
  | 't' :: rest => some ('\t', rest)
  | 'u' :: '{' :: rest => if dialect.bracedEscapes then readBraced rest else none
  | 'u' :: rest => readUnits rest
  | _ => none

theorem length_readUnit {text rest : List Char} {unit : Nat}
    (h : readUnit text = some (unit, rest)) : rest.length < text.length := by
  unfold readUnit at h
  split at h
  · simp only [Option.map_eq_some_iff, Prod.mk.injEq] at h
    obtain ⟨_, _, _, rfl⟩ := h
    simp only [List.length_cons]
    omega
  · contradiction

theorem length_readUnits {text rest : List Char} {c : Char}
    (h : readUnits text = some (c, rest)) : rest.length < text.length := by
  unfold readUnits at h
  split at h
  · contradiction
  · rename_i first
    have firstShorter := length_readUnit first
    split at h
    · split at h
      · split at h
        · contradiction
        · rename_i second
          have secondShorter := length_readUnit second
          split at h
          · simp only [Option.map_eq_some_iff, Prod.mk.injEq] at h
            obtain ⟨_, _, _, rfl⟩ := h
            simp only [List.length_cons] at firstShorter
            omega
          · contradiction
      · contradiction
    · simp only [Option.map_eq_some_iff, Prod.mk.injEq] at h
      obtain ⟨_, _, _, rfl⟩ := h
      exact firstShorter

theorem length_readBraced {text rest : List Char} {c : Char}
    (h : readBraced text = some (c, rest)) : rest.length < text.length := by
  simp only [readBraced] at h
  split at h
  · rename_i after
    have shorter := (List.dropWhile_sublist (l := text) fun c => (hexValue? c).isSome).length_le
    rw [after, List.length_cons] at shorter
    split at h
    · simp only [Option.map_eq_some_iff, Prod.mk.injEq] at h
      obtain ⟨_, _, _, rfl⟩ := h
      omega
    · contradiction
  · contradiction

theorem length_readEscape {dialect : Dialect} {text rest : List Char} {c : Char}
    (h : readEscape dialect text = some (c, rest)) : rest.length < text.length := by
  unfold readEscape at h
  split at h
  case h_9 =>
    split at h
    · have := length_readBraced h
      simp only [List.length_cons]
      omega
    · contradiction
  case h_10 => exact Nat.lt_succ_of_lt (length_readUnits h)
  case h_11 => contradiction
  all_goals
    simp only [Option.some.injEq, Prod.mk.injEq] at h
    simp [← h.2]

/-- Reads what follows the opening quote, up to the closing one: the content and what is left. -/
def read (dialect : Dialect) (text : List Char) : Option (List Char × List Char) :=
  match text with
  | [] => none
  | '"' :: rest => some ([], rest)
  | '\\' :: rest =>
    match _ : readEscape dialect rest with
    | none => none
    | some (c, after) => (read dialect after).map fun (content, left) => (c :: content, left)
  | c :: rest =>
    if dialect.mustEscape c then none
    else (read dialect rest).map fun (content, left) => (c :: content, left)
termination_by text.length
decreasing_by
  · exact Nat.lt_succ_of_lt (length_readEscape (by assumption))
  · simp

theorem length_read {dialect : Dialect} {text content rest : List Char}
    (h : read dialect text = some (content, rest)) : rest.length < text.length := by
  fun_induction read dialect text generalizing content with
  | case1 => contradiction
  | case2 => simp_all
  | case3 => contradiction
  | case4 text c after taken inductionHypothesis =>
    simp only [Option.map_eq_some_iff, Prod.mk.injEq] at h
    obtain ⟨⟨inner, left⟩, found, _, rfl⟩ := h
    have innerShorter : left.length < after.length := inductionHypothesis found
    have := length_readEscape taken
    simp only [List.length_cons]
    omega
  | case5 => contradiction
  | case6 c text _ _ _ inductionHypothesis =>
    simp only [Option.map_eq_some_iff, Prod.mk.injEq] at h
    obtain ⟨⟨inner, left⟩, found, _, rfl⟩ := h
    exact Nat.lt_succ_of_lt (inductionHypothesis found)

end StringLiteral

end Toolsmith.Text

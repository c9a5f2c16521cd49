import Toolsmith.Proofs.Text.StringLiteral

/-!
Spellings of a text between quotes. A character stands for itself, under a letter of its own behind
a backslash, or as its units of UTF-16 in hexadecimal digits. Whichever is chosen for each of them,
the literal reads back as the text that is meant.
-/

set_option autoImplicit false

namespace Toolsmith.Text

theorem scalar?_toNat (c : Char) : scalar? c.toNat = some c := by
  have valid : c.toNat.isValidChar := c.valid
  simp [scalar?, valid, Char.ofNat_toNat]

namespace StringLiteral

/-- The characters that have a letter of their own. -/
def letters : List (Char × Char) :=
  [('"', '"'), ('\\', '\\'), ('/', '/'), ('b', '\x08'), ('f', '\x0c'), ('n', '\n'), ('r', '\r'),
    ('t', '\t')]

/-- Four hexadecimal digits, of either case, for a unit of UTF-16. -/
structure IsUnit (digits : List Char) (unit : Nat) : Prop where
  length : digits.length = 4
  value : hexNumber? digits = some unit

inductive SpellsChar (c : Char) : List Char → Prop
  | plain (noQuote : c ≠ '"') (noBackslash : c ≠ '\\') (noControl : ¬ c.toNat < 0x20) :
      SpellsChar c [c]
  | letter {letter : Char} (known : (letter, c) ∈ letters) : SpellsChar c ['\\', letter]
  | unit {digits : List Char} (single : IsUnit digits c.toNat) :
      SpellsChar c ('\\' :: 'u' :: digits)
  | pair {first second : List Char} {leading trailing : Nat} (before : IsUnit first leading)
      (after : IsUnit second trailing) (isLeading : isLeadingSurrogate leading = true)
      (isTrailing : isTrailingSurrogate trailing = true)
      (value : c.toNat = 0x10000 + (leading - 0xD800) * 0x400 + (trailing - 0xDC00)) :
      SpellsChar c ('\\' :: 'u' :: first ++ '\\' :: 'u' :: second)

/-- A spelling of a text, character by character. -/
inductive Spells : List Char → List Char → Prop
  | nil : Spells [] []
  | cons {c : Char} {content first others : List Char} (char : SpellsChar c first)
      (rest : Spells content others) : Spells (c :: content) (first ++ others)

/-! Units. -/

theorem IsUnit.readUnit {digits : List Char} {unit : Nat} (isUnit : IsUnit digits unit)
    (rest : List Char) : readUnit (digits ++ rest) = some (unit, rest) := by
  obtain ⟨length, value⟩ := isUnit
  match digits, length with
  | [first, second, third, fourth], _ => simp [StringLiteral.readUnit, value]

/-- A digit is no brace, so four of them are not taken for a code point between braces. -/
theorem IsUnit.readEscape {digits : List Char} {unit : Nat} (isUnit : IsUnit digits unit)
    (dialect : Dialect) (rest : List Char) :
    readEscape dialect ('u' :: digits ++ rest) = readUnits (digits ++ rest) := by
  obtain ⟨length, value⟩ := isUnit
  match digits, length with
  | digit :: others, _ =>
    have noBrace : digit ≠ '{' := by
      rintro rfl
      have noDigit : hexValue? '{' = none := by decide
      simp [hexNumber?, noDigit] at value
    exact readEscape_units dialect noBrace (others ++ rest)

theorem isLeadingSurrogate_toNat (c : Char) : isLeadingSurrogate c.toNat = false := by
  have valid : c.toNat < 0xD800 ∨ 0xDFFF < c.toNat ∧ c.toNat < 0x110000 := c.valid
  simp only [isLeadingSurrogate, Bool.and_eq_false_iff, decide_eq_false_iff_not]
  omega

theorem readUnits_single {digits : List Char} {c : Char} (isUnit : IsUnit digits c.toNat)
    (rest : List Char) : readUnits (digits ++ rest) = some (c, rest) := by
  simp [readUnits, isUnit.readUnit, isLeadingSurrogate_toNat, scalar?_toNat]

theorem readUnits_pair {first second : List Char} {leading trailing : Nat} {c : Char}
    (before : IsUnit first leading) (after : IsUnit second trailing)
    (isLeading : isLeadingSurrogate leading = true)
    (isTrailing : isTrailingSurrogate trailing = true)
    (value : c.toNat = 0x10000 + (leading - 0xD800) * 0x400 + (trailing - 0xDC00))
    (rest : List Char) :
    readUnits (first ++ '\\' :: 'u' :: second ++ rest) = some (c, rest) := by
  have scalar := scalar?_toNat c
  rw [value] at scalar
  simp [readUnits, before.readUnit, after.readUnit, isLeading, isTrailing, scalar]

/-! Reading. -/

theorem readEscape_letter (dialect : Dialect) {letter c : Char} (known : (letter, c) ∈ letters)
    (rest : List Char) : readEscape dialect (letter :: rest) = some (c, rest) := by
  simp only [letters, List.mem_cons, Prod.mk.injEq, List.not_mem_nil, or_false] at known
  rcases known with ⟨rfl, rfl⟩ | ⟨rfl, rfl⟩ | ⟨rfl, rfl⟩ | ⟨rfl, rfl⟩ | ⟨rfl, rfl⟩ | ⟨rfl, rfl⟩ |
    ⟨rfl, rfl⟩ | ⟨rfl, rfl⟩ <;> rfl

theorem SpellsChar.read {c : Char} {spelling : List Char} (spells : SpellsChar c spelling)
    {dialect : Dialect} (lenient : dialect.IsLenient) (rest : List Char) :
    read dialect (spelling ++ rest) =
      (read dialect rest).map fun (content, left) => (c :: content, left) := by
  cases spells with
  | plain noQuote noBackslash noControl =>
      have asItIs : dialect.mustEscape c = false := by
        rw [← Bool.not_eq_true]
        exact fun escape => noControl (lenient c escape)
      exact read_plain dialect noQuote noBackslash asItIs rest
  | letter known => exact read_escape (readEscape_letter dialect known rest)
  | unit single =>
      exact read_escape ((single.readEscape dialect rest).trans (readUnits_single single rest))
  | @pair first second leading trailing before after isLeading isTrailing value =>
      have units := readUnits_pair before after isLeading isTrailing value rest
      rw [List.append_assoc] at units ⊢
      exact read_escape ((before.readEscape dialect _).trans units)

/-- A literal reads back however it is spelled. The opening quote is not read by `read`. -/
theorem Spells.read {content spelling : List Char} (spells : Spells content spelling)
    {dialect : Dialect} (lenient : dialect.IsLenient) (rest : List Char) :
    read dialect (spelling ++ '"' :: rest) = some (content, rest) := by
  induction spells with
  | nil => simp [StringLiteral.read]
  | cons char _ inductionHypothesis =>
      rw [List.append_assoc, char.read lenient, inductionHypothesis]
      rfl

/-! Writing. -/

theorem spellsChar_escapedChar (c : Char) : SpellsChar c (escapedChar c) := by
  unfold escapedChar
  split
  · subst c; exact .letter (by decide)
  split
  · subst c; exact .letter (by decide)
  split
  · subst c; exact .letter (by decide)
  split
  · subst c; exact .letter (by decide)
  split
  · subst c; exact .letter (by decide)
  split
  · subst c; exact .letter (by decide)
  split
  · subst c; exact .letter (by decide)
  split
  · rename_i control
    obtain ⟨first, second, third, fourth, digits, _, value⟩ := hexPadded_control c.toNat control
    rw [digits]
    exact .unit ⟨rfl, value⟩
  · rename_i noQuote noBackslash _ _ _ _ _ noControl
    exact .plain noQuote noBackslash noControl

theorem spells_flatMap_escapedChar (content : List Char) :
    Spells content (content.flatMap escapedChar) := by
  induction content with
  | nil => exact .nil
  | cons c content inductionHypothesis =>
      exact .cons (spellsChar_escapedChar c) inductionHypothesis

end StringLiteral

end Toolsmith.Text

import Mathlib.Data.List.TakeWhile
import Toolsmith.Text.StringLiteral

/-!
String literals read back. Whatever a literal is written for, reading it gives that text again and
leaves what follows the closing quote, in every dialect that asks for no escapes beyond controls. A
literal of any making ends at its closing quote, whatever follows that.
-/

set_option autoImplicit false

namespace Toolsmith.Text.StringLiteral

/-- Escapes are asked for at most where `write` gives them anyway. -/
def Dialect.IsLenient (dialect : Dialect) : Prop :=
  ∀ c, dialect.mustEscape c = true → c.toNat < 0x20

/-- The four digits of a control after `\u`. None of them is a brace, so the escape is not taken for
one with a code point between braces. -/
theorem hexPadded_control :
    ∀ n < 0x20, ∃ a b c d, hexPadded 4 n = [a, b, c, d] ∧ a ≠ '{' ∧
      hexNumber? [a, b, c, d] = some n := by
  have checked : ∀ n < 0x20, (hexPadded 4 n).length = 4 ∧ (hexPadded 4 n).head? ≠ some '{' ∧
      hexNumber? (hexPadded 4 n) = some n := by
    decide
  intro n small
  obtain ⟨length, noBrace, number⟩ := checked n small
  match written : hexPadded 4 n, length with
  | [a, b, c, d], _ =>
    rw [written] at noBrace number
    exact ⟨a, b, c, d, rfl, by simpa using noBrace, number⟩

theorem readEscape_control (dialect : Dialect) {c : Char} (control : c.toNat < 0x20)
    (rest : List Char) :
    readEscape dialect ('u' :: hexPadded 4 c.toNat ++ rest) = some (c, rest) := by
  obtain ⟨first, second, third, fourth, digits, noBrace, number⟩ :=
    hexPadded_control c.toNat control
  have unit : readUnit (first :: second :: third :: fourth :: rest) = some (c.toNat, rest) := by
    simp [readUnit, number]
  have noSurrogate : isLeadingSurrogate c.toNat = false := by
    simp only [isLeadingSurrogate, Bool.and_eq_false_iff, decide_eq_false_iff_not]
    omega
  have scalar : scalar? c.toNat = some c := by
    have valid : c.toNat.isValidChar := c.valid
    simp [scalar?, valid, Char.ofNat_toNat]
  have units : readUnits (first :: second :: third :: fourth :: rest) = some (c, rest) := by
    simp [readUnits, unit, noSurrogate, scalar]
  rw [digits]
  simp [readEscape, noBrace, units]

/-- A character is written as itself, or as an escape that reads back. -/
theorem escapedChar_cases (dialect : Dialect) (c : Char) :
    (∃ escape, escapedChar c = '\\' :: escape ∧
      ∀ rest, readEscape dialect (escape ++ rest) = some (c, rest)) ∨
    (escapedChar c = [c] ∧ c ≠ '"' ∧ c ≠ '\\' ∧ ¬ c.toNat < 0x20) := by
  unfold escapedChar
  split
  · subst c; exact .inl ⟨['"'], rfl, fun _ => rfl⟩
  split
  · subst c; exact .inl ⟨['\\'], rfl, fun _ => rfl⟩
  split
  · subst c; exact .inl ⟨['n'], rfl, fun _ => rfl⟩
  split
  · subst c; exact .inl ⟨['r'], rfl, fun _ => rfl⟩
  split
  · subst c; exact .inl ⟨['t'], rfl, fun _ => rfl⟩
  split
  · subst c; exact .inl ⟨['b'], rfl, fun _ => rfl⟩
  split
  · subst c; exact .inl ⟨['f'], rfl, fun _ => rfl⟩
  split
  · rename_i control
    exact .inl ⟨_, rfl, readEscape_control dialect control⟩
  · rename_i noQuote noBackslash _ _ _ _ _ noControl
    exact .inr ⟨rfl, noQuote, noBackslash, noControl⟩

theorem read_escape {dialect : Dialect} {text after : List Char} {c : Char}
    (escape : readEscape dialect text = some (c, after)) :
    read dialect ('\\' :: text) =
      (read dialect after).map fun (content, left) => (c :: content, left) := by
  rw [read]
  split
  · simp_all
  · rename_i taken
    rw [escape] at taken
    obtain ⟨rfl, rfl⟩ := Prod.mk.inj (Option.some.inj taken)
    rfl

theorem read_plain (dialect : Dialect) {c : Char} (noQuote : c ≠ '"') (noBackslash : c ≠ '\\')
    (asItIs : dialect.mustEscape c = false) (rest : List Char) :
    read dialect (c :: rest) =
      (read dialect rest).map fun (content, left) => (c :: content, left) := by
  rw [read, if_neg (by simp [asItIs])]
  · exact noQuote
  · exact noBackslash

/-- Reading a character that was written, escaped or as it is. -/
theorem read_escapedChar {dialect : Dialect} (lenient : dialect.IsLenient) (c : Char)
    (rest : List Char) :
    read dialect (escapedChar c ++ rest) =
      (read dialect rest).map fun (content, left) => (c :: content, left) := by
  rcases escapedChar_cases dialect c with
    ⟨escape, written, reads⟩ | ⟨written, noQuote, noBackslash, noControl⟩
  · rw [written]
    exact read_escape (reads rest)
  · have asItIs : dialect.mustEscape c = false := by
      cases escape : dialect.mustEscape c with
      | false => rfl
      | true => exact absurd (lenient c escape) noControl
    rw [written, List.singleton_append, read_plain dialect noQuote noBackslash asItIs]

/-- A written literal reads back, whatever follows it. The opening quote is not read by `read`. -/
theorem read_flatMap_escapedChar {dialect : Dialect} (lenient : dialect.IsLenient)
    (content rest : List Char) :
    read dialect (content.flatMap escapedChar ++ '"' :: rest) = some (content, rest) := by
  induction content with
  | nil => simp [read]
  | cons c content inductionHypothesis =>
      rw [List.flatMap_cons, List.append_assoc, read_escapedChar lenient, inductionHypothesis]
      rfl

/-! What follows the closing quote has no say in what stands before it. -/

section

variable {text rest : List Char} {c : Char}

theorem readUnit_append {unit : Nat} (read : readUnit text = some (unit, rest))
    (more : List Char) : readUnit (text ++ more) = some (unit, rest ++ more) := by
  unfold readUnit at read
  split at read
  · simp only [Option.map_eq_some_iff, Prod.mk.injEq] at read
    obtain ⟨value, number, rfl, rfl⟩ := read
    simp [readUnit, number]
  · contradiction

theorem readUnits_append (read : readUnits text = some (c, rest)) (more : List Char) :
    readUnits (text ++ more) = some (c, rest ++ more) := by
  unfold readUnits at read
  split at read
  · contradiction
  · rename_i leading afterLeading leadingRead
    simp only [readUnits, readUnit_append leadingRead]
    split at read
    · rename_i surrogate
      rw [if_pos surrogate]
      split at read
      · split at read
        · contradiction
        · rename_i trailing afterTrailing trailingRead
          split at read
          · rename_i pair
            simp only [Option.map_eq_some_iff, Prod.mk.injEq] at read
            obtain ⟨value, scalar, rfl, rfl⟩ := read
            simp [readUnit_append trailingRead, pair, scalar]
          · contradiction
      · contradiction
    · rename_i single
      simp only [Option.map_eq_some_iff, Prod.mk.injEq] at read
      obtain ⟨value, scalar, rfl, rfl⟩ := read
      simp [single, scalar]

/-- The digits up to the closing brace. -/
theorem readBraced_digits {digits : List Char} (all : ∀ c ∈ digits, (hexValue? c).isSome = true)
    (after : List Char) :
    readBraced (digits ++ '}' :: after) =
      if 1 ≤ digits.length ∧ digits.length ≤ 8 then
        ((hexNumber? digits).bind scalar?).map (·, after)
      else none := by
  have noDigit : (hexValue? '}').isSome = false := by decide
  simp only [readBraced, List.takeWhile_append_of_pos all, List.dropWhile_append_of_pos all,
    List.takeWhile_cons, List.dropWhile_cons, noDigit, Bool.false_eq_true, if_false,
    List.append_nil]

theorem readBraced_append (read : readBraced text = some (c, rest)) (more : List Char) :
    readBraced (text ++ more) = some (c, rest ++ more) := by
  obtain ⟨after, closed⟩ :
      ∃ after, text.dropWhile (fun c => (hexValue? c).isSome) = '}' :: after := by
    simp only [readBraced] at read
    split at read
    · exact ⟨_, ‹_›⟩
    · contradiction
  have parts := List.takeWhile_append_dropWhile (p := fun c => (hexValue? c).isSome) (l := text)
  have all : ∀ c ∈ text.takeWhile (fun c => (hexValue? c).isSome), (hexValue? c).isSome = true :=
    fun _ member => List.mem_takeWhile_imp (p := fun c => (hexValue? c).isSome) member
  rw [closed] at parts
  rw [← parts, readBraced_digits all] at read
  rw [← parts, List.append_assoc, List.cons_append, readBraced_digits all]
  split at read
  · rename_i few
    simp only [Option.map_eq_some_iff, Prod.mk.injEq] at read
    obtain ⟨value, scalar, rfl, rfl⟩ := read
    rw [if_pos few, scalar, Option.map_some]
  · contradiction

/-- No brace after the letter means no code point between braces, whatever follows. -/
theorem readEscape_units (dialect : Dialect) {digit : Char} (noBrace : digit ≠ '{')
    (text : List Char) :
    readEscape dialect ('u' :: digit :: text) = readUnits (digit :: text) := by
  simp [readEscape, noBrace]

theorem readEscape_append {dialect : Dialect} (read : readEscape dialect text = some (c, rest))
    (more : List Char) : readEscape dialect (text ++ more) = some (c, rest ++ more) := by
  unfold readEscape at read
  split at read
  case h_9 =>
    split at read
    · rename_i braced
      simp only [List.cons_append, readEscape, if_pos braced, readBraced_append read]
    · contradiction
  case h_10 text unbraced =>
    cases text with
    | nil => contradiction
    | cons digit text =>
        have noBrace : digit ≠ '{' := fun same => unbraced text (by rw [same])
        rw [List.cons_append, List.cons_append, readEscape_units dialect noBrace]
        exact readUnits_append read more
  case h_11 => contradiction
  all_goals
    simp only [Option.some.injEq, Prod.mk.injEq] at read
    obtain ⟨rfl, rfl⟩ := read
    rfl

theorem read_append {dialect : Dialect} {content : List Char}
    (found : read dialect text = some (content, rest)) (more : List Char) :
    read dialect (text ++ more) = some (content, rest ++ more) := by
  fun_induction read dialect text generalizing content with
  | case1 => contradiction
  | case2 text =>
      obtain ⟨rfl, rfl⟩ := Prod.mk.inj (Option.some.inj found)
      rw [List.cons_append, read]
  | case3 => contradiction
  | case4 text c after taken inductionHypothesis =>
      simp only [Option.map_eq_some_iff, Prod.mk.injEq] at found
      obtain ⟨⟨inner, left⟩, innerRead, rfl, rfl⟩ := found
      rw [List.cons_append, read_escape (readEscape_append taken more),
        inductionHypothesis innerRead]
      rfl
  | case5 => contradiction
  | case6 c text noQuote noBackslash asItIs inductionHypothesis =>
      simp only [Option.map_eq_some_iff, Prod.mk.injEq] at found
      obtain ⟨⟨inner, left⟩, innerRead, rfl, rfl⟩ := found
      have plain : dialect.mustEscape c = false := eq_false_of_ne_true asItIs
      rw [List.cons_append, read_plain dialect noQuote noBackslash plain,
        inductionHypothesis innerRead]
      rfl

end

end Toolsmith.Text.StringLiteral

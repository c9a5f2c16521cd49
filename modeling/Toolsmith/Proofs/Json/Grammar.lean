import Toolsmith.Json.Basic

/-!
The grammar of JSON texts. Each relation is between a text and what is left of it behind a phrase at
its front. Outside strings the grammar has no use for the letters `I` and `N`; so the words `NaN`
and `Infinity` stand in no JSON text, however it is put together.
-/

set_option autoImplicit false

namespace Toolsmith.Json.Grammar

/-! Tokens. -/

inductive Blanks : List Char → List Char → Prop
  | none (rest : List Char) : Blanks rest rest
  | more {c : Char} {text rest : List Char} (blank : c ∈ [' ', '\t', '\n', '\r'])
      (others : Blanks text rest) : Blanks (c :: text) rest

/-- One digit or more. -/
inductive Digits : List Char → List Char → Prop
  | last {c : Char} (rest : List Char) (digit : c.isDigit = true) : Digits (c :: rest) rest
  | more {c : Char} {text rest : List Char} (digit : c.isDigit = true)
      (others : Digits text rest) : Digits (c :: text) rest

/-- No zero stands in front of other digits. -/
inductive Whole : List Char → List Char → Prop
  | zero (rest : List Char) : Whole ('0' :: rest) rest
  | digits {c : Char} {text rest : List Char} (nonzero : c ≠ '0')
      (digits : Digits (c :: text) rest) : Whole (c :: text) rest

inductive Fraction : List Char → List Char → Prop
  | none (rest : List Char) : Fraction rest rest
  | point {text rest : List Char} (digits : Digits text rest) : Fraction ('.' :: text) rest

inductive Exponent : List Char → List Char → Prop
  | none (rest : List Char) : Exponent rest rest
  | unsigned {mark : Char} {text rest : List Char} (marked : mark ∈ ['e', 'E'])
      (digits : Digits text rest) : Exponent (mark :: text) rest
  | signed {mark sign : Char} {text rest : List Char} (marked : mark ∈ ['e', 'E'])
      (signed : sign ∈ ['+', '-']) (digits : Digits text rest) :
      Exponent (mark :: sign :: text) rest

inductive Magnitude : List Char → List Char → Prop
  | parts {text afterWhole afterFraction rest : List Char} (whole : Whole text afterWhole)
      (fraction : Fraction afterWhole afterFraction) (exponent : Exponent afterFraction rest) :
      Magnitude text rest

inductive Number : List Char → List Char → Prop
  | positive {text rest : List Char} (magnitude : Magnitude text rest) : Number text rest
  | negative {text rest : List Char} (magnitude : Magnitude text rest) : Number ('-' :: text) rest

def IsHexDigit (c : Char) : Prop :=
  c.isDigit = true ∨ 'a' ≤ c ∧ c ≤ 'f' ∨ 'A' ≤ c ∧ c ≤ 'F'

instance (c : Char) : Decidable (IsHexDigit c) :=
  inferInstanceAs (Decidable (_ ∨ _ ∧ _ ∨ _ ∧ _))

/-- The characters of a string up to the closing quote, which is the last one. -/
inductive Characters : List Char → List Char → Prop
  | close (rest : List Char) : Characters ('"' :: rest) rest
  | plain {c : Char} {text rest : List Char} (noControl : 0x20 ≤ c.toNat) (noQuote : c ≠ '"')
      (noBackslash : c ≠ '\\') (others : Characters text rest) : Characters (c :: text) rest
  | escape {c : Char} {text rest : List Char}
      (short : c ∈ ['"', '\\', '/', 'b', 'f', 'n', 'r', 't'])
      (others : Characters text rest) : Characters ('\\' :: c :: text) rest
  | unit {first second third fourth : Char} {text rest : List Char}
      (hex : ∀ c ∈ [first, second, third, fourth], IsHexDigit c)
      (others : Characters text rest) :
      Characters ('\\' :: 'u' :: first :: second :: third :: fourth :: text) rest

/-! Values. -/

inductive Collection where
  | array
  | object

namespace Collection

def opening : Collection → Char
  | array => '['
  | object => '{'

def closing : Collection → Char
  | array => ']'
  | object => '}'

end Collection

inductive Symbol where
  | value
  | item (collection : Collection)
  | items (collection : Collection)

/-- What each symbol of the grammar stands for. An item of an array is a value between blanks, and
an item of an object has a name and a colon in front of one. -/
inductive Derives : Symbol → List Char → List Char → Prop
  | null (rest : List Char) : Derives .value ("null".toList ++ rest) rest
  | yes (rest : List Char) : Derives .value ("true".toList ++ rest) rest
  | no (rest : List Char) : Derives .value ("false".toList ++ rest) rest
  | number {text rest : List Char} (number : Number text rest) : Derives .value text rest
  | string {text rest : List Char} (characters : Characters text rest) :
      Derives .value ('"' :: text) rest
  | empty (collection : Collection) {text rest : List Char}
      (blanks : Blanks text (collection.closing :: rest)) :
      Derives .value (collection.opening :: text) rest
  | full (collection : Collection) {text rest : List Char}
      (items : Derives (.items collection) text (collection.closing :: rest)) :
      Derives .value (collection.opening :: text) rest
  | element {text afterBlanks afterValue rest : List Char} (before : Blanks text afterBlanks)
      (value : Derives .value afterBlanks afterValue) (after : Blanks afterValue rest) :
      Derives (.item .array) text rest
  | member {text key afterKey value rest : List Char} (before : Blanks text ('"' :: key))
      (characters : Characters key afterKey) (after : Blanks afterKey (':' :: value))
      (element : Derives (.item .array) value rest) : Derives (.item .object) text rest
  | last {collection : Collection} {text rest : List Char}
      (item : Derives (.item collection) text rest) : Derives (.items collection) text rest
  | more {collection : Collection} {text others rest : List Char}
      (item : Derives (.item collection) text (',' :: others))
      (items : Derives (.items collection) others rest) : Derives (.items collection) text rest

/-- A JSON text is one value between blanks. -/
def IsDocument (text : List Char) : Prop :=
  Derives (.item .array) text []

/-! Places in a text. -/

/-- Where a text is read: between strings, in a string, or behind a backslash in a string. Where a
letter stands that JSON has no use for, the reader is lost. -/
inductive Place where
  | outside
  | inside
  | escaped
  | lost
deriving DecidableEq

def Place.next : Place → Char → Place
  | .outside, c =>
    if c = '"' then .inside else if c = 'I' ∨ c = 'N' then .lost else .outside
  | .inside, c =>
    if c = '"' then .outside else if c = '\\' then .escaped else .inside
  | .escaped, _ => .inside
  | .lost, _ => .lost

/-- The place behind a text that is read from a given place on. -/
def Place.after (start : Place) (text : List Char) : Place :=
  text.foldl next start

namespace Place

@[simp]
theorem after_nil (start : Place) : start.after [] = start := rfl

@[simp]
theorem after_cons (start : Place) (c : Char) (text : List Char) :
    start.after (c :: text) = (start.next c).after text := rfl

@[simp]
theorem after_append (start : Place) (first second : List Char) :
    start.after (first ++ second) = (start.after first).after second :=
  List.foldl_append

@[simp]
theorem after_lost (text : List Char) : lost.after text = lost := by
  induction text with
  | nil => rfl
  | cons c text inductionHypothesis => exact inductionHypothesis

theorem next_digit {c : Char} (digit : c.isDigit = true) : outside.next c = outside := by
  have noQuote : c ≠ '"' := by
    rintro rfl
    contradiction
  have noLetter : ¬ (c = 'I' ∨ c = 'N') := by
    rintro (rfl | rfl)
    · contradiction
    · contradiction
  rw [next, if_neg noQuote, if_neg noLetter]

theorem next_hexDigit {c : Char} (hex : IsHexDigit c) : inside.next c = inside := by
  have noQuote : c ≠ '"' := by
    rintro rfl
    revert hex
    decide
  have noBackslash : c ≠ '\\' := by
    rintro rfl
    revert hex
    decide
  rw [next, if_neg noQuote, if_neg noBackslash]

end Place

open Place

theorem Blanks.place {text rest : List Char} (blanks : Blanks text rest) :
    outside.after text = outside.after rest := by
  induction blanks with
  | none => rfl
  | @more c text rest blank _ inductionHypothesis =>
      have between : ∀ c ∈ [' ', '\t', '\n', '\r'], outside.next c = outside := by simp [next]
      rw [after_cons, between c blank, inductionHypothesis]

theorem Digits.place {text rest : List Char} (digits : Digits text rest) :
    outside.after text = outside.after rest := by
  induction digits with
  | last rest digit => rw [after_cons, next_digit digit]
  | more digit _ inductionHypothesis => rw [after_cons, next_digit digit, inductionHypothesis]

theorem Whole.place {text rest : List Char} (whole : Whole text rest) :
    outside.after text = outside.after rest := by
  cases whole with
  | zero => rfl
  | digits _ digits => exact digits.place

theorem Fraction.place {text rest : List Char} (fraction : Fraction text rest) :
    outside.after text = outside.after rest := by
  cases fraction with
  | none => rfl
  | point digits => exact digits.place

theorem Exponent.place {text rest : List Char} (exponent : Exponent text rest) :
    outside.after text = outside.after rest := by
  have marks : ∀ c ∈ ['e', 'E'], outside.next c = outside := by simp [next]
  have signs : ∀ c ∈ ['+', '-'], outside.next c = outside := by simp [next]
  cases exponent with
  | none => rfl
  | @unsigned mark text rest marked digits => rw [after_cons, marks mark marked, digits.place]
  | @signed mark sign text rest marked signed digits =>
      rw [after_cons, marks mark marked, after_cons, signs sign signed, digits.place]

theorem Magnitude.place {text rest : List Char} (magnitude : Magnitude text rest) :
    outside.after text = outside.after rest := by
  cases magnitude with
  | parts whole fraction exponent => rw [whole.place, fraction.place, exponent.place]

theorem Number.place {text rest : List Char} (number : Number text rest) :
    outside.after text = outside.after rest := by
  cases number with
  | positive magnitude => exact magnitude.place
  | negative magnitude => exact magnitude.place

/-- A string ends where it is left. -/
theorem Characters.place {text rest : List Char} (characters : Characters text rest) :
    inside.after text = outside.after rest := by
  induction characters with
  | close => rfl
  | plain _ noQuote noBackslash _ inductionHypothesis =>
      rw [after_cons, next, if_neg noQuote, if_neg noBackslash, inductionHypothesis]
  | escape _ _ inductionHypothesis => exact inductionHypothesis
  | @unit first second third fourth text rest hex _ inductionHypothesis =>
      simp only [List.forall_mem_cons] at hex
      obtain ⟨firstHex, secondHex, thirdHex, fourthHex, _⟩ := hex
      have digits : inside.after (first :: second :: third :: fourth :: text) =
          inside.after text := by
        rw [after_cons, next_hexDigit firstHex, after_cons, next_hexDigit secondHex, after_cons,
          next_hexDigit thirdHex, after_cons, next_hexDigit fourthHex]
      exact digits.trans inductionHypothesis

theorem Derives.place {symbol : Symbol} {text rest : List Char}
    (derives : Derives symbol text rest) : outside.after text = outside.after rest := by
  have brackets : ∀ collection : Collection, outside.next collection.opening = outside ∧
      outside.next collection.closing = outside := by
    intro collection
    cases collection with
    | array => decide
    | object => decide
  induction derives with
  | null => rfl
  | yes => rfl
  | no => rfl
  | number number => exact number.place
  | string characters => exact characters.place
  | empty collection blanks =>
      rw [after_cons, (brackets collection).1, blanks.place, after_cons, (brackets collection).2]
  | full collection _ inductionHypothesis =>
      rw [after_cons, (brackets collection).1, inductionHypothesis, after_cons,
        (brackets collection).2]
  | element before _ after inductionHypothesis =>
      rw [before.place, inductionHypothesis, after.place]
  | member before characters after _ inductionHypothesis =>
      rw [before.place]
      exact (characters.place.trans after.place).trans inductionHypothesis
  | last _ inductionHypothesis => exact inductionHypothesis
  | more _ _ itemHypothesis itemsHypothesis => exact itemHypothesis.trans itemsHypothesis

/-- Nobody gets lost in a JSON text. -/
theorem IsDocument.place {text : List Char} (document : IsDocument text) :
    outside.after text = outside :=
  Derives.place document

end Toolsmith.Json.Grammar

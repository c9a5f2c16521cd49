import Mathlib.Data.Nat.Digits.Defs
import Toolsmith.Number.Integer
import Toolsmith.Proofs.Number.Digits
import Toolsmith.Proofs.Text.Blank

/-!
Which texts are read as integers, and as which ones. Digits may be of any script and stand alone or
with single underscores between them; the value is that of the digits in base ten. A sign stands
directly in front of them, and white space around it all has no say.
-/

set_option autoImplicit false

namespace Toolsmith.Integer

/-- Decimal digits with single underscores between them. -/
inductive Spells : List Char → List Nat → Prop
  | digit {c : Char} {digit : Nat} (value : Text.digitValue? c = some digit) : Spells [c] [digit]
  | next {c : Char} {digit : Nat} {text : List Char} {digits : List Nat}
      (value : Text.digitValue? c = some digit) (rest : Spells text digits) :
      Spells (c :: text) (digit :: digits)
  | underscore {c : Char} {digit : Nat} {text : List Char} {digits : List Nat}
      (value : Text.digitValue? c = some digit) (rest : Spells text digits) :
      Spells (c :: '_' :: text) (digit :: digits)

/-- The number that digits make up in base ten, the first of them being worth most. -/
def ofDigits (digits : List Nat) : Nat :=
  Nat.ofDigits 10 digits.reverse

/-- Digits with an optional sign in front. -/
inductive Numeral : List Char → Int → Prop
  | unsigned {text : List Char} {digits : List Nat} (spells : Spells text digits) :
      Numeral text (ofDigits digits)
  | plus {text : List Char} {digits : List Nat} (spells : Spells text digits) :
      Numeral ('+' :: text) (ofDigits digits)
  | minus {text : List Char} {digits : List Nat} (spells : Spells text digits) :
      Numeral ('-' :: text) (-ofDigits digits)

/-- A numeral with white space around it. -/
def Denotes (text : String) (n : Int) : Prop :=
  ∃ front numeral back, text.toList = front ++ numeral ++ back ∧
    (∀ c ∈ front, Text.isWhitespace c = true) ∧ (∀ c ∈ back, Text.isWhitespace c = true) ∧
    Numeral numeral n

/-! Single digits. -/

theorem exists_zero_of_digitValue? {c : Char} {digit : Nat}
    (value : Text.digitValue? c = some digit) :
    ∃ first ∈ Text.digitZeros, c.toNat = first + digit ∧ digit < 10 := by
  obtain ⟨first, found, rfl⟩ := Option.map_eq_some_iff.mp value
  have within := List.find?_some found
  rw [decide_eq_true_eq] at within
  refine ⟨first, List.mem_of_find?_eq_some found, ?_⟩
  omega

/-- No digit of any script is white space. -/
theorem isWhitespace_of_digitValue? {c : Char} {digit : Nat}
    (value : Text.digitValue? c = some digit) : Text.isWhitespace c = false := by
  obtain ⟨first, member, same, small⟩ := exists_zero_of_digitValue? value
  have apart : ∀ first ∈ Text.digitZeros, ∀ digit < 10,
      ((0x09 ≤ first + digit && first + digit ≤ 0x0D) ||
        (0x2000 ≤ first + digit && first + digit ≤ 0x200A) ||
        [0x20, 0x85, 0xA0, 0x1680, 0x2028, 0x2029, 0x202F, 0x205F, 0x3000].contains
          (first + digit)) = false := by
    decide +kernel
  rw [Text.isWhitespace, same]
  exact apart first member digit small

theorem digitValue?_of_isDigit {c : Char} (isDigit : c.isDigit = true) :
    Text.digitValue? c = some (c.toNat - '0'.toNat) := by
  have bounds : 0x30 ≤ c.toNat ∧ c.toNat ≤ 0x39 := Char.isDigit_iff_toNat.mp isDigit
  have within : 0x30 ≤ c.toNat ∧ c.toNat < 0x30 + 10 := by omega
  have found : (Text.digitZeros.find? fun first => first ≤ c.toNat ∧ c.toNat < first + 10) =
      some 0x30 := List.find?_cons_of_pos (decide_eq_true within)
  rw [Text.digitValue?, found]
  rfl

/-! Runs of digits. -/

theorem ofDigits_cons (digit : Nat) (digits : List Nat) :
    ofDigits (digit :: digits) = 10 ^ digits.length * digit + ofDigits digits := by
  rw [ofDigits, Nat.ofDigits_reverse_cons, Nat.add_comm, ofDigits]

/-- What may stand behind a digit. -/
inductive Follows : List Char → List Nat → Prop
  | nothing : Follows [] []
  | digits {text : List Char} {digits : List Nat} (spells : Spells text digits) :
      Follows text digits
  | underscore {text : List Char} {digits : List Nat} (spells : Spells text digits) :
      Follows ('_' :: text) digits

theorem not_spells_nil (digits : List Nat) : ¬ Spells [] digits := nofun

theorem spells_cons_iff {c : Char} {rest : List Char} {all : List Nat} :
    Spells (c :: rest) all ↔
      ∃ digit digits, Text.digitValue? c = some digit ∧ Follows rest digits ∧
        all = digit :: digits := by
  constructor
  · intro spells
    cases spells with
    | digit value => exact ⟨_, _, value, .nothing, rfl⟩
    | next value spells => exact ⟨_, _, value, .digits spells, rfl⟩
    | underscore value spells => exact ⟨_, _, value, .underscore spells, rfl⟩
  · rintro ⟨digit, digits, value, follows, rfl⟩
    cases follows with
    | nothing => exact .digit value
    | digits spells => exact .next value spells
    | underscore spells => exact .underscore value spells

theorem not_spells_of_no_digit {c : Char} (noDigit : Text.digitValue? c = none) (rest : List Char)
    (digits : List Nat) : ¬ Spells (c :: rest) digits := by
  rw [spells_cons_iff]
  rintro ⟨digit, _, value, _⟩
  rw [noDigit] at value
  contradiction

theorem follows_nil_iff {digits : List Nat} : Follows [] digits ↔ digits = [] := by
  constructor
  · intro follows
    cases follows with
    | nothing => rfl
    | digits spells => exact absurd spells (not_spells_nil digits)
  · rintro rfl
    exact .nothing

theorem follows_underscore_iff {rest : List Char} {digits : List Nat} :
    Follows ('_' :: rest) digits ↔ Spells rest digits := by
  constructor
  · intro follows
    cases follows with
    | digits spells => exact absurd spells (not_spells_of_no_digit (by decide) rest digits)
    | underscore spells => exact spells
  · exact .underscore

/-- Without an underscore that a character follows, there is nothing but digits. -/
theorem follows_cons_iff {c : Char} {rest : List Char} {digits : List Nat}
    (noUnderscore : ∀ d behind, c = '_' → rest = d :: behind → False) :
    Follows (c :: rest) digits ↔ Spells (c :: rest) digits := by
  constructor
  · intro follows
    cases follows with
    | digits spells => exact spells
    | underscore spells =>
        cases rest with
        | nil => exact absurd spells (not_spells_nil digits)
        | cons d behind => exact absurd rfl (noUnderscore d behind rfl)
  · exact .digits

/-- A digit moves the number in front of it up by one place. -/
theorem bind_moreDigits_iff {value n : Nat} {c : Char} {rest : List Char}
    (more : ∀ digit, moreDigits (10 * value + digit) rest = some n ↔
      ∃ digits, Follows rest digits ∧
        10 ^ digits.length * (10 * value + digit) + ofDigits digits = n) :
    ((Text.digitValue? c).bind fun digit => moreDigits (10 * value + digit) rest) = some n ↔
      ∃ digits, Spells (c :: rest) digits ∧
        10 ^ digits.length * value + ofDigits digits = n := by
  have moved (digit : Nat) (digits : List Nat) :
      10 ^ (digit :: digits).length * value + ofDigits (digit :: digits) =
        10 ^ digits.length * (10 * value + digit) + ofDigits digits := by
    rw [ofDigits_cons, List.length_cons]
    ring
  simp only [Option.bind_eq_some_iff, more, spells_cons_iff]
  constructor
  · rintro ⟨digit, found, digits, follows, same⟩
    exact ⟨digit :: digits, ⟨digit, digits, found, follows, rfl⟩, (moved digit digits).trans same⟩
  · rintro ⟨_, ⟨digit, digits, found, follows, rfl⟩, same⟩
    exact ⟨digit, found, digits, follows, (moved digit digits).symm.trans same⟩

theorem moreDigits_eq_some_iff {value n : Nat} {text : List Char} :
    moreDigits value text = some n ↔
      ∃ digits, Follows text digits ∧ 10 ^ digits.length * value + ofDigits digits = n := by
  induction value, text using moreDigits.induct with
  | case1 value =>
      rw [moreDigits, Option.some.injEq]
      simp [follows_nil_iff, ofDigits]
  | case2 value c rest inductionHypothesis =>
      rw [moreDigits, bind_moreDigits_iff inductionHypothesis]
      simp only [follows_underscore_iff]
  | case3 value c rest noUnderscore inductionHypothesis =>
      rw [moreDigits.eq_3 value c rest noUnderscore, bind_moreDigits_iff inductionHypothesis]
      simp only [follows_cons_iff noUnderscore]

theorem digits?_eq_some_iff {text : List Char} {n : Nat} :
    digits? text = some n ↔ ∃ digits, Spells text digits ∧ ofDigits digits = n := by
  cases text with
  | nil =>
      rw [digits?]
      simp [not_spells_nil]
  | cons c rest =>
      have first := @bind_moreDigits_iff 0 n c rest fun _ => moreDigits_eq_some_iff
      simp only [Nat.mul_zero, Nat.zero_add] at first
      exact first

/-! Signs and white space. -/

theorem map_digits?_eq_some_iff {signed : Nat → Int} {text : List Char} {n : Int} :
    (digits? text).map signed = some n ↔
      ∃ digits, Spells text digits ∧ signed (ofDigits digits) = n := by
  simp only [Option.map_eq_some_iff, digits?_eq_some_iff]
  constructor
  · rintro ⟨_, ⟨digits, spells, rfl⟩, same⟩
    exact ⟨digits, spells, same⟩
  · rintro ⟨digits, spells, same⟩
    exact ⟨_, ⟨digits, spells, rfl⟩, same⟩

theorem signed?_minus (rest : List Char) :
    signed? ('-' :: rest) = (digits? rest).map fun magnitude : Nat => -(magnitude : Int) := by
  rw [signed?]
  cases digits? rest with
  | none => rfl
  | some magnitude => rfl

theorem signed?_eq_some_iff {text : List Char} {n : Int} :
    signed? text = some n ↔ Numeral text n := by
  have noSign : Text.digitValue? '-' = none ∧ Text.digitValue? '+' = none := by decide
  induction text using signed?.fun_cases with
  | case1 rest =>
      rw [signed?_minus, map_digits?_eq_some_iff]
      constructor
      · rintro ⟨digits, spells, rfl⟩
        exact .minus spells
      · intro numeral
        cases numeral with
        | unsigned spells => exact absurd spells (not_spells_of_no_digit noSign.1 rest _)
        | minus spells => exact ⟨_, spells, rfl⟩
  | case2 rest =>
      rw [signed?, map_digits?_eq_some_iff]
      constructor
      · rintro ⟨digits, spells, rfl⟩
        exact .plus spells
      · intro numeral
        cases numeral with
        | unsigned spells => exact absurd spells (not_spells_of_no_digit noSign.2 rest _)
        | plus spells => exact ⟨_, spells, rfl⟩
  | case3 text noMinus noPlus =>
      rw [signed?.eq_3 text noMinus noPlus, map_digits?_eq_some_iff]
      constructor
      · rintro ⟨digits, spells, rfl⟩
        exact .unsigned spells
      · intro numeral
        cases numeral with
        | unsigned spells => exact ⟨_, spells, rfl⟩
        | plus => exact absurd rfl (noPlus _)
        | minus => exact absurd rfl (noMinus _)

theorem Spells.noWhitespace {text : List Char} {digits : List Nat} (spells : Spells text digits) :
    ∀ c ∈ text, Text.isWhitespace c = false := by
  induction spells with
  | digit value => exact List.forall_mem_singleton.mpr (isWhitespace_of_digitValue? value)
  | next value _ inductionHypothesis =>
      exact List.forall_mem_cons.mpr ⟨isWhitespace_of_digitValue? value, inductionHypothesis⟩
  | underscore value _ inductionHypothesis =>
      refine List.forall_mem_cons.mpr ⟨isWhitespace_of_digitValue? value, ?_⟩
      exact List.forall_mem_cons.mpr ⟨rfl, inductionHypothesis⟩

theorem Numeral.noWhitespace {text : List Char} {n : Int} (numeral : Numeral text n) :
    ∀ c ∈ text, Text.isWhitespace c = false := by
  cases numeral with
  | unsigned spells => exact spells.noWhitespace
  | plus spells => exact List.forall_mem_cons.mpr ⟨rfl, spells.noWhitespace⟩
  | minus spells => exact List.forall_mem_cons.mpr ⟨rfl, spells.noWhitespace⟩

/-- A text is read as the number that it denotes, and what denotes none is not read. -/
theorem read?_eq_some_iff {text : String} {n : Int} : read? text = some n ↔ Denotes text n := by
  rw [read?, signed?_eq_some_iff]
  constructor
  · intro numeral
    obtain ⟨front, back, whole, before, behind⟩ :=
      Text.exists_eq_trimBy Text.isWhitespace text.toList
    exact ⟨front, _, back, whole, before, behind, numeral⟩
  · rintro ⟨front, numeral, back, whole, before, behind, denotes⟩
    have trimmed := Text.IsTrimmed.of_forall denotes.noWhitespace
    rwa [whole, trimmed.trimBy_surround before behind]

/-! Numbers as they are written. -/

theorem ofDigits_map_toNat (text : List Char) :
    ofDigits (text.map fun c => c.toNat - '0'.toNat) = Decimal.ofDigits text := by
  induction text with
  | nil => rfl
  | cons c rest inductionHypothesis =>
      have first : Decimal.ofDigits [c] = c.toNat - '0'.toNat := by
        rw [Decimal.ofDigits, List.foldl_cons, List.foldl_nil, Nat.mul_zero, Nat.zero_add]
      rw [List.map_cons, ofDigits_cons, inductionHypothesis, ← List.singleton_append,
        Decimal.ofDigits_append, first, List.length_map, Nat.mul_comm]

theorem spells_of_isDigit {text : List Char} (some : text ≠ [])
    (each : ∀ c ∈ text, c.isDigit = true) :
    Spells text (text.map fun c => c.toNat - '0'.toNat) := by
  induction text with
  | nil => contradiction
  | cons c rest inductionHypothesis =>
      obtain ⟨first, others⟩ := List.forall_mem_cons.mp each
      cases rest with
      | nil => exact .digit (digitValue?_of_isDigit first)
      | cons d behind =>
          apply Spells.next (digitValue?_of_isDigit first)
          exact inductionHypothesis (List.cons_ne_nil d behind) others

theorem isDigit_zeros_append (zeros n : Nat) :
    ∀ c ∈ List.replicate zeros '0' ++ Nat.toDigits 10 n, c.isDigit = true := by
  intro c member
  rcases List.mem_append.mp member with zero | digit
  · rw [List.eq_of_mem_replicate zero]
    rfl
  · exact Decimal.isDigit_toDigits digit

/-- The decimal text of a number denotes it, whatever zeros stand in front and whatever white space
stands around it. -/
theorem denotes_toDigits (zeros n : Nat) {front back : List Char}
    (before : ∀ c ∈ front, Text.isWhitespace c = true)
    (behind : ∀ c ∈ back, Text.isWhitespace c = true) :
    Denotes
      (String.ofList (front ++ (List.replicate zeros '0' ++ Nat.toDigits 10 n) ++ back)) n := by
  refine ⟨front, _, back, String.toList_ofList, before, behind, ?_⟩
  have value := ofDigits_map_toNat (List.replicate zeros '0' ++ Nat.toDigits 10 n)
  rw [Decimal.ofDigits_zeros_append, Decimal.ofDigits_toDigits] at value
  have numeral := Numeral.unsigned (spells_of_isDigit
    (List.append_ne_nil_of_right_ne_nil (List.replicate zeros '0') Nat.toDigits_ne_nil)
    (isDigit_zeros_append zeros n))
  rwa [value] at numeral

end Toolsmith.Integer

import Toolsmith.Number.Double

/-!
Numerals as JSON and GraphQL write them: an optional minus sign, a whole part without leading zeros,
and optionally a fraction and an exponent. One with a fraction or an exponent is a floating-point
number, any other an integer.
-/

set_option autoImplicit false

namespace Toolsmith

inductive Numeral where
  | integer (value : Int)
  | decimal (value : Decimal)
deriving DecidableEq, Repr

namespace Numeral

/-- Splits the digits off the front of a text. -/
def takeDigits (text : List Char) : List Char × List Char :=
  (text.takeWhile Char.isDigit, text.dropWhile Char.isDigit)

def takeSign : List Char → Bool × List Char
  | '-' :: rest => (true, rest)
  | text => (false, text)

/-- The whole part: a single zero, or digits that do not start with one. -/
def readWhole : List Char → Option (List Char × List Char)
  | '0' :: rest => some (['0'], rest)
  | text =>
    match takeDigits text with
    | ([], _) => none
    | taken => some taken

/-- A point and at least one digit; otherwise nothing is taken. -/
def readFraction : List Char → Option (List Char) × List Char
  | text@('.' :: rest) =>
    match takeDigits rest with
    | ([], _) => (none, text)
    | (digits, rest) => (some digits, rest)
  | text => (none, text)

/-- A sign, where a plus sign may stand for none. -/
def takeAnySign : List Char → Bool × List Char
  | '-' :: rest => (true, rest)
  | '+' :: rest => (false, rest)
  | text => (false, text)

/-- The letter `e`, an optional sign and at least one digit; otherwise nothing is taken. -/
def readExponent (text : List Char) : Option Int × List Char :=
  match text with
  | c :: rest =>
    if c = 'e' ∨ c = 'E' then
      match takeAnySign rest with
      | (negative, rest) =>
        match takeDigits rest with
        | ([], _) => (none, text)
        | (digits, rest) =>
          let magnitude : Int := Decimal.ofDigits digits
          (some (if negative then -magnitude else magnitude), rest)
    else (none, text)
  | [] => (none, text)

def ofParts
    (negative : Bool)
    (whole : List Char)
    (fraction : Option (List Char))
    (exponent : Option Int) : Numeral :=
  match fraction, exponent with
  | none, none =>
    let magnitude : Int := Decimal.ofDigits whole
    .integer (if negative then -magnitude else magnitude)
  | _, _ =>
    let places := fraction.getD []
    .decimal
      { negative
        digits := Decimal.ofDigits (whole ++ places)
        exponent := exponent.getD 0 - places.length }

/-- Reads the longest numeral at the front of a text. -/
def read (text : List Char) : Option (Numeral × List Char) :=
  let sign := takeSign text
  match readWhole sign.2 with
  | none => none
  | some (whole, afterWhole) =>
    let fraction := readFraction afterWhole
    let exponent := readExponent fraction.2
    some (ofParts sign.1 whole fraction.1 exponent.1, exponent.2)

/-! Each part leaves no more than it was given, and a numeral takes at least one character. -/

theorem length_takeDigits (text : List Char) : (takeDigits text).2.length ≤ text.length :=
  (List.dropWhile_sublist _).length_le

theorem length_takeSign (text : List Char) : (takeSign text).2.length ≤ text.length := by
  unfold takeSign
  split <;> simp

theorem length_takeAnySign (text : List Char) :
    (takeAnySign text).2.length ≤ text.length := by
  unfold takeAnySign
  split <;> simp

theorem length_readWhole {text digits rest : List Char} (h : readWhole text = some (digits, rest)) :
    rest.length < text.length := by
  unfold readWhole at h
  split at h
  · simp only [Option.some.injEq, Prod.mk.injEq] at h
    simp [← h.2]
  · split at h
    · contradiction
    · rename_i taken
      simp only [Option.some.injEq] at h
      have split := List.takeWhile_append_dropWhile (p := Char.isDigit) (l := text)
      have digits_eq : text.takeWhile Char.isDigit = digits := congrArg Prod.fst h
      have rest_eq : text.dropWhile Char.isDigit = rest := congrArg Prod.snd h
      have nonempty : digits ≠ [] := fun empty => taken rest (by rw [h, empty])
      rw [digits_eq, rest_eq] at split
      rw [← split, List.length_append]
      have := List.length_pos_iff.mpr nonempty
      omega

theorem length_readFraction (text : List Char) : (readFraction text).2.length ≤ text.length := by
  unfold readFraction
  split
  · rename_i rest
    have shorter := length_takeDigits rest
    split
    · simp
    · rename_i taken
      rw [taken] at shorter
      exact Nat.le_succ_of_le shorter
  · simp

theorem length_readExponent (text : List Char) : (readExponent text).2.length ≤ text.length := by
  unfold readExponent
  split
  · rename_i c rest
    split
    · split
      rename_i negative afterSign sign
      have signShorter := length_takeAnySign rest
      have shorter := length_takeDigits afterSign
      simp only [sign] at signShorter
      split
      · simp
      · rename_i taken
        rw [taken] at shorter
        exact Nat.le_succ_of_le (Nat.le_trans shorter signShorter)
    · simp
  · simp

theorem length_read {text rest : List Char} {numeral : Numeral}
    (h : read text = some (numeral, rest)) : rest.length < text.length := by
  simp only [read] at h
  split at h
  · contradiction
  · rename_i whole afterWhole taken
    simp only [Option.some.injEq, Prod.mk.injEq] at h
    have signShorter := length_takeSign text
    have wholeShorter := length_readWhole taken
    have fractionShorter := length_readFraction afterWhole
    have exponentShorter := length_readExponent (readFraction afterWhole).2
    rw [← h.2]
    omega

end Numeral

end Toolsmith

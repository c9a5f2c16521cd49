import Toolsmith.Number.Integer
import Toolsmith.Number.Numeral
import Toolsmith.Proofs.Number.Exact

/-!
Written numbers read back. An integer is read as an integer and a floating-point number as a decimal
with a point or an exponent, which is rounded to the number that was written. What follows a number
must not look like more of it.
-/

set_option autoImplicit false

namespace Toolsmith

namespace Numeral

/-- No digit stands in front. -/
def NoDigit (text : List Char) : Prop :=
  ∀ c ∈ text.head?, c.isDigit = false

/-- Nothing stands in front that a numeral could go on with. -/
structure Ends (text : List Char) : Prop where
  noDigit : NoDigit text
  noPoint : ∀ c ∈ text.head?, c ≠ '.'
  noExponent : ∀ c ∈ text.head?, c ≠ 'e' ∧ c ≠ 'E'

/-! The parts of a numeral. -/

theorem takeDigits_append {digits rest : List Char} (all : ∀ c ∈ digits, c.isDigit = true)
    (noDigit : NoDigit rest) : takeDigits (digits ++ rest) = (digits, rest) := by
  have taken : rest.takeWhile Char.isDigit = [] ∧ rest.dropWhile Char.isDigit = rest := by
    cases rest with
    | nil => exact ⟨rfl, rfl⟩
    | cons c rest =>
        have none : c.isDigit = false := noDigit c rfl
        simp [none]
  simp [takeDigits, List.takeWhile_append_of_pos all, List.dropWhile_append_of_pos all, taken]

theorem readWhole_zero (rest : List Char) : readWhole ('0' :: rest) = some (['0'], rest) := rfl

theorem readWhole_digits {digits rest : List Char} (nonempty : digits ≠ [])
    (all : ∀ c ∈ digits, c.isDigit = true) (nonzero : ∀ c ∈ digits.head?, c ≠ '0')
    (noDigit : NoDigit rest) : readWhole (digits ++ rest) = some (digits, rest) := by
  have taken := takeDigits_append all noDigit
  cases digits with
  | nil => exact absurd rfl nonempty
  | cons first digits =>
      rw [List.cons_append] at taken ⊢
      unfold readWhole
      split
      · rename_i zero
        exact absurd (List.cons.inj zero).1 (nonzero first rfl)
      · simp [taken]

theorem readWhole_toDigits (n : Nat) {rest : List Char} (noDigit : NoDigit rest) :
    readWhole (Nat.toDigits 10 n ++ rest) = some (Nat.toDigits 10 n, rest) := by
  rcases Nat.eq_zero_or_pos n with rfl | positive
  · rw [Nat.toDigits_zero]
    exact readWhole_zero rest
  · exact readWhole_digits Nat.toDigits_ne_nil (fun _ => Decimal.isDigit_toDigits)
      (Decimal.head_toDigits positive) noDigit

theorem readFraction_digits {digits rest : List Char} (nonempty : digits ≠ [])
    (all : ∀ c ∈ digits, c.isDigit = true) (noDigit : NoDigit rest) :
    readFraction ('.' :: (digits ++ rest)) = (some digits, rest) := by
  rw [readFraction, takeDigits_append all noDigit]
  cases digits with
  | nil => exact absurd rfl nonempty
  | cons digit digits => rfl

theorem readFraction_none {text : List Char} (noPoint : ∀ c ∈ text.head?, c ≠ '.') :
    readFraction text = (none, text) := by
  unfold readFraction
  split
  · exact absurd rfl (noPoint '.' rfl)
  · rfl

theorem readExponent_none {text : List Char} (noExponent : ∀ c ∈ text.head?, c ≠ 'e' ∧ c ≠ 'E') :
    readExponent text = (none, text) := by
  cases text with
  | nil => rfl
  | cons c text =>
      obtain ⟨lower, upper⟩ := noExponent c rfl
      simp [readExponent, lower, upper]

theorem readExponent_exponentText (exponent : Int) {rest : List Char} (noDigit : NoDigit rest) :
    readExponent (Double.exponentText exponent ++ rest) = (some exponent, rest) := by
  let digits := List.replicate (2 - (Nat.toDigits 10 exponent.natAbs).length) '0' ++
    Nat.toDigits 10 exponent.natAbs
  have all : ∀ c ∈ digits, c.isDigit = true := by
    intro c member
    rcases List.mem_append.mp member with zero | digit
    · rw [(List.mem_replicate.mp zero).2]
      rfl
    · exact Decimal.isDigit_toDigits digit
  have value : Decimal.ofDigits digits = exponent.natAbs := by
    rw [Decimal.ofDigits_zeros_append, Decimal.ofDigits_toDigits]
  have taken : takeDigits (digits ++ rest) = (digits, rest) := takeDigits_append all noDigit
  have nonempty : digits ≠ [] := by simp [digits]
  by_cases negative : exponent < 0
  · have written : Double.exponentText exponent = 'e' :: '-' :: digits := by
      simp [Double.exponentText, negative, digits]
    have magnitude : (Decimal.ofDigits digits : Int) = -exponent := by omega
    simp [written, readExponent, takeAnySign, taken, magnitude]
  · have written : Double.exponentText exponent = 'e' :: '+' :: digits := by
      simp [Double.exponentText, negative, digits]
    have magnitude : (Decimal.ofDigits digits : Int) = exponent := by omega
    simp [written, readExponent, takeAnySign, taken, magnitude]

/-! Whole numerals. -/

theorem takeSign_signText (negative : Bool) {text : List Char}
    (unsigned : ∀ c ∈ text.head?, c ≠ '-') :
    takeSign (Double.signText negative ++ text) = (negative, text) := by
  cases negative with
  | true => rfl
  | false =>
      rw [Double.signText, if_neg (by decide), List.nil_append]
      unfold takeSign
      split
      · exact absurd rfl (unsigned '-' rfl)
      · rfl

/-- Reading part by part: a sign, a whole part, and what the rest is found to hold. -/
theorem read_signText (negative : Bool) {text whole afterWhole afterFraction rest : List Char}
    {fraction : Option (List Char)} {exponent : Option Int}
    (unsigned : ∀ c ∈ text.head?, c ≠ '-')
    (wholeRead : readWhole text = some (whole, afterWhole))
    (fractionRead : readFraction afterWhole = (fraction, afterFraction))
    (exponentRead : readExponent afterFraction = (exponent, rest)) :
    read (Double.signText negative ++ text) =
      some (ofParts negative whole fraction exponent, rest) := by
  simp [read, takeSign_signText negative unsigned, wholeRead, fractionRead, exponentRead]

theorem head_digit_ne_minus {digits : List Char} (rest : List Char) (nonempty : digits ≠ [])
    (all : ∀ c ∈ digits, c.isDigit = true) : ∀ c ∈ (digits ++ rest).head?, c ≠ '-' := by
  cases digits with
  | nil => exact absurd rfl nonempty
  | cons digit digits =>
      rintro c member rfl
      have first : digit = '-' := by simpa using member
      have digit' := all digit (by simp)
      rw [first] at digit'
      exact absurd digit' (by decide)

/-- An integer reads back as an integer. -/
theorem read_integer (n : Int) {rest : List Char} (ends : Ends rest) :
    read (Integer.write n ++ rest) = some (.integer n, rest) := by
  have written : Integer.write n ++ rest =
      Double.signText (decide (n < 0)) ++ (Nat.toDigits 10 n.natAbs ++ rest) := by
    simp [Integer.write, Double.signText]
  have unsigned : ∀ c ∈ (Nat.toDigits 10 n.natAbs ++ rest).head?, c ≠ '-' :=
    head_digit_ne_minus rest (by simp) fun _ => Decimal.isDigit_toDigits
  rw [written, read_signText _ unsigned (readWhole_toDigits n.natAbs ends.noDigit)
    (readFraction_none ends.noPoint) (readExponent_none ends.noExponent)]
  simp only [ofParts, Decimal.ofDigits_toDigits, decide_eq_true_eq]
  congr 3
  split <;> omega

/-! Floating-point numbers. -/

theorem read_point (negative : Bool) (whole fraction rest : List Char)
    (wholeNonempty : whole ≠ []) (wholeDigits : ∀ c ∈ whole, c.isDigit = true)
    (wholeRead : ∀ after, NoDigit after → readWhole (whole ++ after) = some (whole, after))
    (nonempty : fraction ≠ []) (all : ∀ c ∈ fraction, c.isDigit = true)
    {exponent : Option Int} {left : List Char} (noDigit : NoDigit rest)
    (exponentRead : readExponent rest = (exponent, left)) :
    read (Double.signText negative ++ (whole ++ '.' :: (fraction ++ rest))) =
      some (.decimal
        { negative
          digits := Decimal.ofDigits (whole ++ fraction)
          exponent := exponent.getD 0 - fraction.length }, left) := by
  have pointFollows : NoDigit ('.' :: (fraction ++ rest)) := by
    intro c member
    rw [← Option.mem_some_iff.mp member]
    rfl
  rw [read_signText negative (head_digit_ne_minus _ wholeNonempty wholeDigits)
    (wholeRead _ pointFollows) (readFraction_digits nonempty all noDigit) exponentRead]
  cases exponent <;> rfl

end Numeral

/-- The decimal that the text of a decimal is read as: a whole number is written with a zero after
the point. -/
def Decimal.asWritten (d : Decimal) : Decimal :=
  if d.digits = 0 then { d with exponent := -1 }
  else if 0 ≤ d.exponent ∧ d.exponent + digitCount d.digits ≤ 16 then
    { d with digits := d.digits * 10 ^ (d.exponent.toNat + 1), exponent := -1 }
  else d

namespace Double

open Numeral

theorem ofDecimal_asWritten (d : Decimal) : ofDecimal d.asWritten = ofDecimal d := by
  unfold Decimal.asWritten
  split
  · rename_i zero
    simp [ofDecimal, zero]
  split
  · rename_i whole
    have shifted : d.exponent - (d.exponent.toNat + 1 : Nat) = -1 := by omega
    rw [← ofDecimal_shift d (d.exponent.toNat + 1), shifted]
  · rfl

theorem exponentText_noDigit (exponent : Int) (rest : List Char) :
    NoDigit (exponentText exponent ++ rest) := by
  intro c member
  rw [← Option.mem_some_iff.mp member]
  rfl

theorem exponentText_noPoint (exponent : Int) (rest : List Char) :
    ∀ c ∈ (exponentText exponent ++ rest).head?, c ≠ '.' := by
  rintro c member rfl
  exact absurd (Option.mem_some_iff.mp member) (by decide)

theorem read_scientificText (negative : Bool) {digits : List Char} (nonempty : digits ≠ [])
    (all : ∀ c ∈ digits, c.isDigit = true)
    (nonzero : ∀ c ∈ digits.head?, c ≠ '0') (exponent : Int) {rest : List Char}
    (ends : Ends rest) :
    read (signText negative ++ (scientificText digits exponent ++ rest)) =
      some (.decimal
        { negative
          digits := Decimal.ofDigits digits
          exponent := exponent - (digits.length - 1 : Nat) }, rest) := by
  match digits, nonempty with
  | [digit], nonempty =>
    have wholeRead := readWhole_digits nonempty all nonzero (exponentText_noDigit exponent rest)
    have unsigned := head_digit_ne_minus (exponentText exponent ++ rest) nonempty all
    have whole := read_signText negative unsigned wholeRead
      (readFraction_none (exponentText_noPoint exponent rest))
      (readExponent_exponentText exponent ends.noDigit)
    simpa [scientificText, Numeral.ofParts] using whole
  | digit :: second :: fraction, _ =>
    have first : ∀ c ∈ [digit], c.isDigit = true := fun c member => all c (by simp_all)
    have others : ∀ c ∈ second :: fraction, c.isDigit = true :=
      fun c member => all c (List.mem_cons_of_mem _ member)
    have point := read_point negative [digit] (second :: fraction) (exponentText exponent ++ rest)
      (by simp) first
      (fun _ => readWhole_digits (by simp) first nonzero)
      (by simp) others (exponentText_noDigit exponent rest)
      (readExponent_exponentText exponent ends.noDigit)
    simpa [scientificText] using point

theorem isDigit_of_mem_zeros {count : Nat} {c : Char} (member : c ∈ List.replicate count '0') :
    c.isDigit = true := by
  rw [(List.mem_replicate.mp member).2]
  rfl

/-- All digits are behind the point. -/
theorem read_positionalText_behind (negative : Bool) {digits : List Char} (nonempty : digits ≠ [])
    (all : ∀ c ∈ digits, c.isDigit = true) {point : Int} (leading : point ≤ 0) {rest : List Char}
    (ends : Ends rest) :
    read (signText negative ++ (positionalText digits point ++ rest)) =
      some (.decimal
        { negative
          digits := Decimal.ofDigits digits
          exponent := point - digits.length }, rest) := by
  have fractionDigits : ∀ c ∈ List.replicate (-point).toNat '0' ++ digits, c.isDigit = true := by
    intro c member
    rcases List.mem_append.mp member with zero | digit
    · exact isDigit_of_mem_zeros zero
    · exact all c digit
  have read := read_point negative ['0'] _ rest (by simp)
    (@isDigit_of_mem_zeros 1) (fun after _ => readWhole_zero after)
    (by simp [nonempty]) fractionDigits ends.noDigit (readExponent_none ends.noExponent)
  have value : Decimal.ofDigits (['0'] ++ (List.replicate (-point).toNat '0' ++ digits)) =
      Decimal.ofDigits digits := by
    rw [← List.replicate_one, Decimal.ofDigits_zeros_append, Decimal.ofDigits_zeros_append]
  have exponent : (0 : Int) - (List.replicate (-point).toNat '0' ++ digits).length =
      point - digits.length := by
    simp only [List.length_append, List.length_replicate]
    omega
  rw [value, Option.getD_none, exponent] at read
  rw [← read, positionalText, if_pos leading]
  simp

/-- All digits are in front of the point, and zeros between the two. -/
theorem read_positionalText_before (negative : Bool) {digits : List Char} (nonempty : digits ≠ [])
    (all : ∀ c ∈ digits, c.isDigit = true) (nonzero : ∀ c ∈ digits.head?, c ≠ '0') {point : Int}
    (whole : digits.length ≤ point) {rest : List Char} (ends : Ends rest) :
    read (signText negative ++ (positionalText digits point ++ rest)) =
      some (.decimal
        { negative
          digits := Decimal.ofDigits digits * 10 ^ ((point - digits.length).toNat + 1)
          exponent := -1 }, rest) := by
  have length := List.length_pos_iff.mpr nonempty
  have wholeDigits : ∀ c ∈ digits ++ List.replicate (point.toNat - digits.length) '0',
      c.isDigit = true := by
    intro c member
    rcases List.mem_append.mp member with digit | zero
    · exact all c digit
    · exact isDigit_of_mem_zeros zero
  have wholeHead : ∀ c ∈ (digits ++ List.replicate (point.toNat - digits.length) '0').head?,
      c ≠ '0' := by
    rwa [List.head?_append_of_ne_nil _ nonempty]
  have read := read_point negative _ ['0'] rest (by simp [nonempty])
    wholeDigits (fun _ => readWhole_digits (by simp [nonempty]) wholeDigits wholeHead)
    (by simp) (@isDigit_of_mem_zeros 1) ends.noDigit
    (readExponent_none ends.noExponent)
  have value : Decimal.ofDigits
        (digits ++ List.replicate (point.toNat - digits.length) '0' ++ ['0']) =
      Decimal.ofDigits digits * 10 ^ ((point - digits.length).toNat + 1) := by
    rw [List.append_assoc, ← List.replicate_succ', Decimal.ofDigits_append_zeros]
    congr 2
    omega
  have taken : digits.take point.toNat = digits := List.take_of_length_le (by omega)
  have none : digits.drop point.toNat = [] := List.drop_eq_nil_of_le (by omega)
  rw [value] at read
  rw [positionalText, if_neg (by omega)]
  simpa [taken, none] using read

/-- The point is between two digits. -/
theorem read_positionalText_between (negative : Bool) {digits : List Char}
    (all : ∀ c ∈ digits, c.isDigit = true) (nonzero : ∀ c ∈ digits.head?, c ≠ '0') {point : Int}
    (positive : 0 < point) (inside : point < digits.length) {rest : List Char} (ends : Ends rest) :
    read (signText negative ++ (positionalText digits point ++ rest)) =
      some (.decimal
        { negative
          digits := Decimal.ofDigits digits
          exponent := point - digits.length }, rest) := by
  have wholeDigits : ∀ c ∈ digits.take point.toNat, c.isDigit = true :=
    fun c member => all c (List.mem_of_mem_take member)
  have fractionDigits : ∀ c ∈ digits.drop point.toNat, c.isDigit = true :=
    fun c member => all c (List.mem_of_mem_drop member)
  have wholeHead : ∀ c ∈ (digits.take point.toNat).head?, c ≠ '0' := by
    rwa [List.head?_take, if_neg (by omega)]
  have wholeNonempty : digits.take point.toNat ≠ [] := by
    rw [← List.length_pos_iff, List.length_take]
    omega
  have fractionNonempty : digits.drop point.toNat ≠ [] := by
    rw [← List.length_pos_iff, List.length_drop]
    omega
  have read := read_point negative _ _ rest wholeNonempty wholeDigits
    (fun _ => readWhole_digits wholeNonempty wholeDigits wholeHead)
    fractionNonempty fractionDigits ends.noDigit (readExponent_none ends.noExponent)
  have exponent : (0 : Int) - (digits.drop point.toNat).length = point - digits.length := by
    rw [List.length_drop]
    omega
  have noZeros : point.toNat - digits.length = 0 := by omega
  rw [List.take_append_drop, Option.getD_none, exponent] at read
  rw [positionalText, if_neg (by omega)]
  simpa [noZeros, fractionNonempty] using read

/-- Positional digits are those of the decimal as it is written. -/
theorem read_positionalText (negative : Bool) {digits : List Char} (nonempty : digits ≠ [])
    (all : ∀ c ∈ digits, c.isDigit = true)
    (nonzero : ∀ c ∈ digits.head?, c ≠ '0') (point : Int) {rest : List Char} (ends : Ends rest) :
    read (signText negative ++ (positionalText digits point ++ rest)) =
      some (.decimal
        (if digits.length ≤ point then
          { negative
            digits := Decimal.ofDigits digits * 10 ^ ((point - digits.length).toNat + 1)
            exponent := -1 }
        else
          { negative
            digits := Decimal.ofDigits digits
            exponent := point - digits.length }), rest) := by
  by_cases whole : digits.length ≤ point
  · rw [if_pos whole]
    exact read_positionalText_before negative nonempty all nonzero whole ends
  · rw [if_neg whole]
    by_cases leading : point ≤ 0
    · exact read_positionalText_behind negative nonempty all leading ends
    · exact read_positionalText_between negative all nonzero (by omega) (by omega) ends

/-- The text of a decimal reads back as the decimal it shows. -/
theorem read_magnitudeText (d : Decimal) {rest : List Char} (ends : Ends rest) :
    read (signText d.negative ++ (magnitudeText d ++ rest)) =
      some (.decimal d.asWritten, rest) := by
  unfold magnitudeText Decimal.asWritten
  split
  · rename_i zero
    have read := read_point d.negative ['0'] ['0'] rest (by simp)
      (by simp) (fun after _ => readWhole_zero after) (by simp) (by simp) ends.noDigit
      (readExponent_none ends.noExponent)
    simpa [zero, Decimal.ofDigits] using read
  · rename_i nonzero
    have nonempty : Nat.toDigits 10 d.digits ≠ [] := Nat.toDigits_ne_nil
    have head := Decimal.head_toDigits (Nat.pos_of_ne_zero nonzero)
    have count : (Nat.toDigits 10 d.digits).length = Decimal.digitCount d.digits := rfl
    have positive := Decimal.digitCount_pos d.digits
    dsimp only
    split
    · rename_i positional
      rw [read_positionalText d.negative nonempty (fun _ => Decimal.isDigit_toDigits) head _ ends,
        Decimal.ofDigits_toDigits, count]
      congr 3
      by_cases whole : 0 ≤ d.exponent
      · rw [if_pos (by omega), if_pos (by omega), add_sub_cancel_right]
      · rw [if_neg (by omega), if_neg (by omega), add_sub_cancel_right]
    · rename_i scientific
      have exponent : d.exponent + (Decimal.digitCount d.digits : Int) - 1 -
          (Decimal.digitCount d.digits - 1 : Nat) = d.exponent := by omega
      rw [read_scientificText d.negative nonempty (fun _ => Decimal.isDigit_toDigits) head _ ends,
        Decimal.ofDigits_toDigits, count, if_neg (by omega), exponent]

/-- The decimal that the text of a finite number reads back as. -/
def readAs : Double → Decimal
  | x@(.finite negative significand exponent _) =>
    (x.shortest (exactDecimal negative significand exponent)).asWritten
  | .infinite negative => { negative, digits := 0, exponent := 0 }
  | .nan => { negative := false, digits := 0, exponent := 0 }

theorem negative_shortest (x : Double) (d : Decimal) : (x.shortest d).negative = d.negative := by
  have negative_trimZeros : ∀ d : Decimal, d.trimZeros.negative = d.negative := by
    intro d
    unfold Decimal.trimZeros
    dsimp only
    split <;> rfl
  rw [shortest, negative_trimZeros]
  cases found : ((List.range' 1 17).flatMap (neighbours d)).find? fun candidate =>
      ofDecimal candidate = x with
  | none => rfl
  | some candidate =>
      obtain ⟨count, -, member⟩ := List.mem_flatMap.mp (List.mem_of_find?_eq_some found)
      rcases List.mem_cons.mp member with rfl | member
      · rfl
      · rw [List.mem_singleton.mp member]
        rfl

/-- The text of a finite number is read as a decimal, not as an integer. -/
theorem read_text {x : Double} (finite : x.isFinite = true) {rest : List Char} (ends : Ends rest) :
    read (x.text ++ rest) = some (.decimal x.readAs, rest) := by
  cases x with
  | finite negative significand exponent canonical =>
      let d := shortest (.finite negative significand exponent canonical)
        (exactDecimal negative significand exponent)
      have sign : d.negative = negative := negative_shortest _ _
      have read := read_magnitudeText d ends
      rw [sign] at read
      simpa [text, readAs] using read
  | infinite negative => simp [isFinite] at finite
  | nan => simp [isFinite] at finite

/-- The text of a finite number reads back as that number. -/
theorem ofDecimal_readAs {x : Double} (finite : x.isFinite = true) : ofDecimal x.readAs = x := by
  cases x with
  | finite negative significand exponent canonical =>
      exact (ofDecimal_asWritten _).trans (ofDecimal_shortest negative canonical)
  | infinite negative => simp [isFinite] at finite
  | nan => simp [isFinite] at finite

end Double

end Toolsmith

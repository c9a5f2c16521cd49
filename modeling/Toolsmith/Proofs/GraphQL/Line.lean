import Toolsmith.Proofs.GraphQL.Names

/-!
Texts on lines of their own. A line break ends a name, a number and a comment, and a string ends at
its closing quotes, so a text that lexes keeps its tokens when a line break and more follow.
-/

set_option autoImplicit false

namespace Toolsmith

namespace Text

variable {p : Char → Bool} (stops : p '\n' = false) (text more : List Char)

include stops

theorem takeWhile_line : (text ++ '\n' :: more).takeWhile p = text.takeWhile p := by
  induction text with
  | nil => simp [stops]
  | cons c text inductionHypothesis =>
      rw [List.cons_append, List.takeWhile_cons, List.takeWhile_cons, inductionHypothesis]

theorem dropWhile_line : (text ++ '\n' :: more).dropWhile p = text.dropWhile p ++ '\n' :: more := by
  induction text with
  | nil => simp [stops]
  | cons c text inductionHypothesis =>
      rw [List.cons_append, List.dropWhile_cons, List.dropWhile_cons, inductionHypothesis]
      split <;> rfl

end Text

namespace Numeral

variable (text more : List Char)

theorem takeDigits_line :
    takeDigits (text ++ '\n' :: more) = (takeDigits text).map id (· ++ '\n' :: more) :=
  Prod.ext (Text.takeWhile_line (by decide) text more) (Text.dropWhile_line (by decide) text more)

theorem takeSign_line :
    takeSign (text ++ '\n' :: more) = (takeSign text).map id (· ++ '\n' :: more) := by
  cases text with
  | nil => rfl
  | cons c text =>
      by_cases minus : c = '-'
      · subst minus
        rfl
      · simp [takeSign, minus]

theorem takeAnySign_line :
    takeAnySign (text ++ '\n' :: more) = (takeAnySign text).map id (· ++ '\n' :: more) := by
  cases text with
  | nil => rfl
  | cons c text =>
      by_cases minus : c = '-'
      · subst minus
        rfl
      · by_cases plus : c = '+'
        · subst plus
          rfl
        · simp [takeAnySign, minus, plus]

theorem readWhole_of_ne_zero {c : Char} (noZero : c ≠ '0') (text : List Char) :
    readWhole (c :: text) =
      if (takeDigits (c :: text)).1.isEmpty then none else some (takeDigits (c :: text)) := by
  unfold readWhole
  split
  · rename_i zero
    exact absurd (List.cons.inj zero).1 noZero
  · rcases takeDigits (c :: text) with ⟨digits, rest⟩
    cases digits <;> rfl

theorem readWhole_line :
    readWhole (text ++ '\n' :: more) =
      (readWhole text).map (Prod.map id (· ++ '\n' :: more)) := by
  cases text with
  | nil => rfl
  | cons c text =>
      by_cases zero : c = '0'
      · subst zero
        rfl
      · rw [List.cons_append, readWhole_of_ne_zero zero, readWhole_of_ne_zero zero,
          ← List.cons_append, takeDigits_line, Prod.map_fst, id]
        split <;> rfl

theorem readFraction_line :
    readFraction (text ++ '\n' :: more) = (readFraction text).map id (· ++ '\n' :: more) := by
  cases text with
  | nil => rfl
  | cons c text =>
      by_cases point : c = '.'
      · subst point
        simp only [List.cons_append, readFraction, takeDigits_line]
        cases takeDigits text with
        | mk digits rest => cases digits <;> rfl
      · simp [readFraction, point]

theorem readExponent_line :
    readExponent (text ++ '\n' :: more) = (readExponent text).map id (· ++ '\n' :: more) := by
  cases text with
  | nil => rfl
  | cons c text =>
      by_cases letter : c = 'e' ∨ c = 'E'
      · simp only [List.cons_append, readExponent, if_pos letter, takeAnySign_line]
        cases takeAnySign text with
        | mk negative afterSign =>
            simp only [Prod.map_apply, id, takeDigits_line]
            cases takeDigits afterSign with
            | mk digits rest => cases digits <;> rfl
      · simp [readExponent, letter]

/-- A line break ends a numeral. -/
theorem read_line :
    read (text ++ '\n' :: more) = (read text).map (Prod.map id (· ++ '\n' :: more)) := by
  simp only [read, takeSign_line, Prod.map_fst, Prod.map_snd, id, readWhole_line]
  cases readWhole (takeSign text).2 with
  | none => rfl
  | some whole => simp [readFraction_line, readExponent_line]

end Numeral

namespace GraphQL

namespace BlockString

/-- Three quotes stand at the end of what is read, at least. -/
theorem length_of_readRaw {text content rest : List Char}
    (found : readRaw text = some (content, rest)) : 3 ≤ text.length := by
  fun_induction readRaw text generalizing content with
  | case1 => contradiction
  | case2 => simp
  | case3 text inductionHypothesis => simp
  | case4 c text _ _ inductionHypothesis =>
      simp only [Option.map_eq_some_iff, Prod.mk.injEq] at found
      obtain ⟨⟨inner, left⟩, innerRead, _, rfl⟩ := found
      exact Nat.le_succ_of_le (inductionHypothesis innerRead)

theorem readRaw_append {text content rest : List Char}
    (found : readRaw text = some (content, rest)) (more : List Char) :
    readRaw (text ++ more) = some (content, rest ++ more) := by
  fun_induction readRaw text generalizing content with
  | case1 => contradiction
  | case2 text =>
      obtain ⟨rfl, rfl⟩ := Prod.mk.inj (Option.some.inj found)
      rfl
  | case3 text inductionHypothesis =>
      simp only [Option.map_eq_some_iff, Prod.mk.injEq] at found
      obtain ⟨⟨inner, left⟩, innerRead, rfl, rfl⟩ := found
      simp only [List.cons_append, readRaw, inductionHypothesis innerRead, Option.map_some]
  | case4 c text noQuotes noEscape inductionHypothesis =>
      simp only [Option.map_eq_some_iff, Prod.mk.injEq] at found
      obtain ⟨⟨inner, left⟩, innerRead, rfl, rfl⟩ := found
      have long := length_of_readRaw innerRead
      match text, long with
      | first :: second :: third :: text, _ =>
        rw [List.cons_append, readRaw, inductionHypothesis innerRead]
        · rfl
        · intro after quote same
          simp only [List.cons_append, List.cons.injEq] at same
          obtain ⟨rfl, rfl, _⟩ := same
          exact noQuotes _ quote rfl
        · intro after backslash same
          simp only [List.cons_append, List.cons.injEq] at same
          obtain ⟨rfl, rfl, rfl, _⟩ := same
          exact noEscape _ backslash rfl

theorem read_append {text content rest : List Char} (found : read text = some (content, rest))
    (more : List Char) : read (text ++ more) = some (content, rest ++ more) := by
  simp only [read, Option.map_eq_some_iff, Prod.mk.injEq] at found
  obtain ⟨⟨raw, left⟩, rawRead, rfl, rfl⟩ := found
  rw [read, readRaw_append rawRead, Option.map_some]

end BlockString

namespace Token

variable {text rest : List Char}

theorem endsNumber_line {text : List Char} (ends : endsNumber text = true) (more : List Char) :
    endsNumber (text ++ '\n' :: more) = true := by
  cases text with
  | nil => rfl
  | cons c text => exact ends

theorem exists_numeral_of_readNumber {piece : Piece Token}
    (found : readNumber text = some (piece, rest)) :
    ∃ numeral, Numeral.read text = some (numeral, rest) ∧ endsNumber rest = true ∧
      piece = .token (ofNumeral numeral) := by
  unfold readNumber at found
  split at found
  · rename_i numeral left numeralRead
    split at found
    · rename_i ends
      obtain ⟨rfl, rfl⟩ := Prod.mk.inj (Option.some.inj found)
      exact ⟨numeral, numeralRead, ends, rfl⟩
    · contradiction
  · contradiction

theorem readName_line (first : Char) (text more : List Char) :
    readName first (text ++ '\n' :: more) = (readName first text).map id (· ++ '\n' :: more) := by
  have stops : isNameContinue '\n' = false := by decide
  rw [readName, Text.takeWhile_line stops, Text.dropWhile_line stops]
  rfl

theorem readPiece_line_of_start {c : Char} {piece : Piece Token}
    (found : (if isNameStart c then some (readName c text) else readNumber (c :: text)) =
      some (piece, rest)) (more : List Char) :
    readPiece (c :: text ++ '\n' :: more) = some (piece, rest ++ '\n' :: more) := by
  split at found
  · rename_i start
    rw [List.cons_append, readPiece_of_isNameStart start, readName_line, Option.some.inj found]
    rfl
  · obtain ⟨numeral, read, ends, rfl⟩ := exists_numeral_of_readNumber found
    have line := Numeral.read_line (c :: text) more
    rw [read, Option.map_some] at line
    exact readPiece_of_numeral line (endsNumber_line ends more)

/-- A piece is the same when a line break and more follow. -/
theorem readPiece_line {piece : Piece Token} (found : readPiece text = some (piece, rest))
    (more : List Char) :
    readPiece (text ++ '\n' :: more) = some (piece, rest ++ '\n' :: more) := by
  unfold readPiece at found
  split at found
  case h_15 text =>
    simp only [Option.map_eq_some_iff, Prod.mk.injEq] at found
    obtain ⟨⟨content, left⟩, read, rfl, rfl⟩ := found
    simp only [List.cons_append, readPiece, BlockString.read_append read, Option.map_some]
  case h_16 text single =>
    simp only [Option.map_eq_some_iff, Prod.mk.injEq] at found
    obtain ⟨⟨content, left⟩, read, rfl, rfl⟩ := found
    have stillSingle : ∀ after, text ++ '\n' :: more ≠ '"' :: '"' :: after := by
      intro after same
      match text with
      | [] => exact absurd (List.cons.inj same).1 (by decide)
      | [c] => exact absurd (List.cons.inj (List.cons.inj same).2).1 (by decide)
      | first :: second :: text =>
        simp only [List.cons_append, List.cons.injEq] at same
        obtain ⟨rfl, rfl, _⟩ := same
        exact single text rfl
    rw [List.cons_append, readPiece_quote stillSingle, Text.StringLiteral.read_append read]
    rfl
  case h_17 => exact readPiece_line_of_start found more
  case h_18 => contradiction
  all_goals
    obtain ⟨rfl, rfl⟩ := Prod.mk.inj (Option.some.inj found)
    rfl

/-- A line break and more add the pieces of what follows. -/
theorem pieces?_line {pieces : List (Piece Token)} (found : pieces? text = some pieces)
    (more : List Char) :
    pieces? (text ++ '\n' :: more) = (pieces? more).map (pieces ++ ·) := by
  fun_induction pieces? text generalizing pieces with
  | case1 =>
      obtain rfl := Option.some.inj found
      rw [List.nil_append, pieces?, if_pos (by decide)]
      simp
  | case2 c text skipped inductionHypothesis =>
      rw [List.cons_append, pieces?, if_pos skipped, inductionHypothesis found]
  | case3 text skipped inductionHypothesis =>
      rw [List.cons_append, pieces?, if_neg skipped, if_pos rfl, Text.dropWhile_line (by decide),
        inductionHypothesis found]
  | case4 => contradiction
  | case5 c text skipped noComment piece after read inductionHypothesis =>
      obtain ⟨others, othersFound, rfl⟩ := Option.map_eq_some_iff.mp found
      have line := readPiece_line read more
      rw [List.cons_append] at line ⊢
      rw [pieces?, if_neg skipped, if_neg noComment]
      split
      · simp_all
      · rename_i other left again
        rw [line, Option.some.injEq, Prod.mk.injEq] at again
        obtain ⟨rfl, rfl⟩ := again
        rw [inductionHypothesis othersFound]
        simp [Function.comp_def]

/-- One text above another gives the trees of both. -/
theorem trees?_line {first second : String} {before after : List (Tree Token)}
    (firstTrees : trees? first = some before) (secondTrees : trees? second = some after) :
    trees? (first ++ "\n" ++ second) = some (before ++ after) := by
  obtain ⟨pieces, lexed, grouped⟩ := Option.bind_eq_some_iff.mp firstTrees
  obtain ⟨others, othersLexed, othersGrouped⟩ := Option.bind_eq_some_iff.mp secondTrees
  have written : (first ++ "\n" ++ second).toList = first.toList ++ '\n' :: second.toList := by
    simp
  rw [trees?, written, pieces?_line lexed, othersLexed, Option.map_some, Option.bind_some,
    ← Tree.flatMap_pieces_of_ofPieces? grouped, ← Tree.flatMap_pieces_of_ofPieces? othersGrouped,
    ← List.flatMap_append, Tree.ofPieces?_flatMap_pieces]

end Token

end GraphQL

end Toolsmith

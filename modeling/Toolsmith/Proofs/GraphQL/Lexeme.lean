import Mathlib.Tactic.Common
import Toolsmith.GraphQL.Literal
import Toolsmith.GraphQL.Token
import Toolsmith.Proofs.Number.Numeral
import Toolsmith.Proofs.Text.StringLiteral

/-!
Tokens with the text they are written with, and texts made of tokens. A text lexes to pieces when it
does so in front of everything that ends its last token; texts that lex can be joined wherever the
next one starts with a blank, a comma, a colon or a bracket.
-/

set_option autoImplicit false

namespace Toolsmith

namespace Piece

variable {α β : Type}

def map (change : α → β) : Piece α → Piece β
  | .token value => .token (change value)
  | .opening bracket => .opening bracket
  | .closing bracket => .closing bracket

end Piece

namespace Bracket

def openingChar : Bracket → Char
  | .round => '('
  | .square => '['
  | .curly => '{'

def closingChar : Bracket → Char
  | .round => ')'
  | .square => ']'
  | .curly => '}'

end Bracket

namespace GraphQL

structure Lexeme where
  token : Token
  text : List Char
deriving DecidableEq, Repr

namespace Token

/-- A piece with the text it was read from. -/
def withText (text : List Char) (piece : Piece Token) : Piece Lexeme :=
  piece.map fun token => ⟨token, text⟩

/-- The pieces of a text as `pieces?` reads them, each token with its text. -/
def lexemes? (text : List Char) : Option (List (Piece Lexeme)) :=
  match text with
  | [] => some []
  | c :: rest =>
    if isSkipped c then lexemes? rest
    else if c = '#' then lexemes? (rest.dropWhile fun c => !isLineEnd c)
    else
      match _ : readPiece (c :: rest) with
      | none => none
      | some (piece, after) =>
        (lexemes? after).map
          (withText ((c :: rest).take ((c :: rest).length - after.length)) piece :: ·)
termination_by text.length
decreasing_by
  · simp
  · exact Nat.lt_succ_of_le (List.dropWhile_sublist _).length_le
  · exact length_readPiece (by assumption)

theorem map_token_withText (text : List Char) (piece : Piece Token) :
    (withText text piece).map Lexeme.token = piece := by
  cases piece <;> rfl

/-- Without their texts the lexemes are the tokens. -/
theorem pieces?_eq_map_lexemes? (text : List Char) :
    pieces? text = (lexemes? text).map (List.map (Piece.map Lexeme.token)) := by
  fun_induction lexemes? text with
  | case1 => simp [pieces?]
  | case2 c rest skipped inductionHypothesis =>
      rw [pieces?, if_pos skipped, inductionHypothesis]
  | case3 rest skipped inductionHypothesis =>
      rw [pieces?, if_neg skipped, if_pos rfl, inductionHypothesis]
  | case4 c rest skipped noComment unread =>
      rw [pieces?, if_neg skipped, if_neg noComment]
      split
      · rfl
      · simp_all
  | case5 c rest skipped noComment piece after read inductionHypothesis =>
      rw [pieces?, if_neg skipped, if_neg noComment]
      split
      · simp_all
      · rename_i other left found
        rw [read, Option.some.injEq, Prod.mk.injEq] at found
        obtain ⟨rfl, rfl⟩ := found
        rw [inductionHypothesis]
        simp [Function.comp_def, map_token_withText]

/-! Reading one piece. -/

/-- What punctuation and strings start with. -/
def ownStarts : List Char :=
  ['!', '$', '&', '.', ':', '=', '@', '|', '(', ')', '[', ']', '{', '}', '"']

/-- They start no name and no number, and are not passed over. -/
theorem not_start_of_mem_ownStarts {c : Char} (member : c ∈ ownStarts) :
    isNameStart c = false ∧ c.isDigit = false ∧ c ≠ '-' ∧ isSkipped c = false ∧ c ≠ '#' := by
  have checked : ownStarts.all (fun start =>
      !isNameStart start && !start.isDigit && start != '-' && !isSkipped start &&
        start != '#') = true := by decide
  simpa [and_assoc] using List.all_eq_true.mp checked c member

theorem readPiece_cases (c : Char) (rest : List Char) :
    c ∈ ownStarts ∨
      readPiece (c :: rest) =
        if isNameStart c then some (readName c rest) else readNumber (c :: rest) := by
  unfold readPiece
  split
  case h_17 =>
    rename_i same
    obtain ⟨rfl, rfl⟩ := List.cons.inj same
    exact .inr rfl
  case h_18 => contradiction
  all_goals
    rename_i same
    obtain ⟨rfl, _⟩ := List.cons.inj same
    exact .inl (by decide)

theorem readPiece_of_isNameStart {c : Char} (start : isNameStart c = true) (rest : List Char) :
    readPiece (c :: rest) = some (readName c rest) := by
  rcases readPiece_cases c rest with own | read
  · have noName := (not_start_of_mem_ownStarts own).1
    rw [start] at noName
    contradiction
  · rw [read, if_pos start]

theorem isNameStart_of_isDigit {c : Char} (digit : c.isDigit = true) : isNameStart c = false := by
  have noUnderscore : c ≠ '_' := by
    rintro rfl
    exact absurd digit (by decide)
  have atMost : c.val.toNat ≤ 57 := (Char.isDigit_iff_toNat.mp digit).2
  have letters : c.isAlpha =
      (decide (c.val ≥ 'A'.val ∧ c.val ≤ 'Z'.val) ||
        (decide (c.val ≥ 'a'.val) && decide (c.val ≤ 'z'.val))) := rfl
  simp only [isNameStart, letters, Bool.or_eq_false_iff, Bool.and_eq_false_iff,
    decide_eq_false_iff_not, ge_iff_le, UInt32.le_iff_toNat_le, beq_eq_false_iff_ne]
  refine ⟨⟨?_, .inl ?_⟩, noUnderscore⟩
  · rintro ⟨least, _⟩
    change 65 ≤ c.val.toNat at least
    omega
  · change ¬ 97 ≤ c.val.toNat
    omega

/-- A numeral starts with a digit or with a minus sign. -/
theorem head_of_numeral {c : Char} {rest after : List Char} {numeral : Numeral}
    (read : Numeral.read (c :: rest) = some (numeral, after)) : c.isDigit = true ∨ c = '-' := by
  by_cases minus : c = '-'
  · exact .inr minus
  · left
    have sign : Numeral.takeSign (c :: rest) = (false, c :: rest) := by
      unfold Numeral.takeSign
      split
      · rename_i same
        exact absurd (List.cons.inj same).1 minus
      · rfl
    by_cases digit : c.isDigit = true
    · exact digit
    · have whole : Numeral.readWhole (c :: rest) = none := by
        unfold Numeral.readWhole
        split
        · rename_i same
          obtain ⟨rfl, _⟩ := List.cons.inj same
          exact absurd rfl digit
        · simp [Numeral.takeDigits, digit]
      simp [Numeral.read, sign, whole] at read

/-- A numeral starts with what starts no other piece. -/
theorem readPiece_of_numeral {c : Char} {rest after : List Char} {numeral : Numeral}
    (read : Numeral.read (c :: rest) = some (numeral, after)) (ends : endsNumber after = true) :
    readPiece (c :: rest) = some (.token (ofNumeral numeral), after) := by
  have start := head_of_numeral read
  rcases readPiece_cases c rest with own | found
  · obtain ⟨_, noDigit, noMinus, _⟩ := not_start_of_mem_ownStarts own
    rcases start with digit | minus
    · rw [digit] at noDigit
      contradiction
    · exact absurd minus noMinus
  · have noName : isNameStart c = false := by
      rcases start with digit | rfl
      · exact isNameStart_of_isDigit digit
      · decide
    rw [found, noName, if_neg (by decide), readNumber, read]
    simp [ends]

/-- What is passed over between tokens starts no token. -/
theorem starts_of_readPiece {c : Char} {rest after : List Char} {piece : Piece Token}
    (read : readPiece (c :: rest) = some (piece, after)) : isSkipped c = false ∧ c ≠ '#' := by
  rcases readPiece_cases c rest with own | found
  · obtain ⟨_, _, _, notSkipped, noComment⟩ := not_start_of_mem_ownStarts own
    exact ⟨notSkipped, noComment⟩
  · have start : isNameStart c = true ∨ c.isDigit = true ∨ c = '-' := by
      by_cases name : isNameStart c = true
      · exact .inl name
      · rw [found, if_neg name, readNumber] at read
        split at read
        · exact .inr (head_of_numeral ‹_›)
        · contradiction
    have blanks : ∀ blank ∈ [' ', '\t', ',', '\n', '\r', '\uFEFF', '#'], c ≠ blank := by
      have none : [' ', '\t', ',', '\n', '\r', '\uFEFF', '#'].all (fun blank =>
          !(isNameStart blank || blank.isDigit || blank == '-')) = true := by decide
      intro blank member same
      have noStart := List.all_eq_true.mp none blank member
      rw [← same] at noStart
      simp only [Bool.not_eq_true', Bool.or_eq_false_iff, beq_eq_false_iff_ne] at noStart
      rcases start with name | digit | minus
      · simp [name] at noStart
      · simp [digit] at noStart
      · exact noStart.2 minus
    refine ⟨?_, blanks '#' (by decide)⟩
    simp only [isSkipped, List.contains_eq_mem, decide_eq_false_iff_not]
    intro member
    exact blanks c (List.mem_append_left ['#'] member) rfl

/-- What ends a token, whichever it is: no part of a name or a number, and no quote. -/
def EndsToken (rest : List Char) : Prop :=
  ∀ c ∈ rest.head?, isNameContinue c = false ∧ c ≠ '.' ∧ c ≠ '"'

theorem endsToken_nil : EndsToken [] := by
  simp [EndsToken]

theorem EndsToken.of_cons {c : Char} (rest : List Char)
    (ends : isNameContinue c = false ∧ c ≠ '.' ∧ c ≠ '"') : EndsToken (c :: rest) := by
  intro first member
  rwa [← Option.mem_some_iff.mp member]

theorem EndsToken.endsNumber {rest : List Char} (ends : EndsToken rest) :
    endsNumber rest = true := by
  cases rest with
  | nil => rfl
  | cons c rest =>
      obtain ⟨noName, noPoint, _⟩ := ends c rfl
      simp [Token.endsNumber, noName, noPoint]

theorem EndsToken.numeralEnds {rest : List Char} (ends : EndsToken rest) : Numeral.Ends rest := by
  have noName : ∀ c ∈ rest.head?, isNameContinue c = false := fun c member => (ends c member).1
  refine ⟨?_, fun c member => (ends c member).2.1, ?_⟩
  · intro c member
    have continued := noName c member
    simp only [isNameContinue, Bool.or_eq_false_iff] at continued
    exact continued.2
  · intro c member
    have continued := noName c member
    refine ⟨?_, ?_⟩
    · rintro rfl
      exact absurd continued (by decide)
    · rintro rfl
      exact absurd continued (by decide)

/-- A text lexes to pieces, whatever follows it that ends its last token. -/
def Lexes (text : List Char) (pieces : List (Piece Lexeme)) : Prop :=
  ∀ rest, EndsToken rest → lexemes? (text ++ rest) = (lexemes? rest).map (pieces ++ ·)

/-- A text lexes to pieces, whatever follows it. -/
def LexesFreely (text : List Char) (pieces : List (Piece Lexeme)) : Prop :=
  ∀ rest, lexemes? (text ++ rest) = (lexemes? rest).map (pieces ++ ·)

theorem LexesFreely.lexes {text : List Char} {pieces : List (Piece Lexeme)}
    (lexes : LexesFreely text pieces) : Lexes text pieces :=
  fun rest _ => lexes rest

theorem lexesFreely_nil : LexesFreely [] [] := by
  intro rest
  simp

theorem LexesFreely.append {first second : List Char} {before after : List (Piece Lexeme)}
    (firstLexes : LexesFreely first before) (secondLexes : Lexes second after) :
    Lexes (first ++ second) (before ++ after) := by
  intro rest ends
  rw [List.append_assoc, firstLexes, secondLexes rest ends]
  simp [Function.comp_def]

/-- What comes second ends the last token of what comes first. -/
theorem Lexes.append {first second : List Char} {before after : List (Piece Lexeme)}
    (firstLexes : Lexes first before) (secondLexes : Lexes second after)
    (ends : ∀ rest, EndsToken rest → EndsToken (second ++ rest)) :
    Lexes (first ++ second) (before ++ after) := by
  intro rest restEnds
  rw [List.append_assoc, firstLexes _ (ends rest restEnds), secondLexes rest restEnds]
  simp [Function.comp_def]

/-- The whole of a text that lexes. -/
theorem Lexes.lexemes? {text : List Char} {pieces : List (Piece Lexeme)}
    (lexes : Lexes text pieces) : lexemes? text = some pieces := by
  simpa [Token.lexemes?] using lexes [] endsToken_nil

/-! What texts lex. -/

/-- One piece is taken off the front, and the others follow. -/
theorem lexemes?_of_readPiece {text rest : List Char} {piece : Piece Token} (nonempty : text ≠ [])
    (read : readPiece (text ++ rest) = some (piece, rest)) :
    Token.lexemes? (text ++ rest) = (Token.lexemes? rest).map (withText text piece :: ·) := by
  cases text with
  | nil => exact absurd rfl nonempty
  | cons c text =>
      rw [List.cons_append] at read ⊢
      obtain ⟨notSkipped, noComment⟩ := starts_of_readPiece read
      have consumed : (c :: (text ++ rest)).take ((c :: (text ++ rest)).length - rest.length) =
          c :: text := by
        have length : (c :: (text ++ rest)).length - rest.length = (c :: text).length := by
          simp only [List.length_cons, List.length_append]
          omega
        rw [length, ← List.cons_append, List.take_left]
      rw [Token.lexemes?, if_neg (by simp [notSkipped]), if_neg noComment]
      split
      · simp_all
      · rename_i other left found
        rw [read, Option.some.injEq, Prod.mk.injEq] at found
        obtain ⟨rfl, rfl⟩ := found
        rw [consumed]

theorem lexes_of_readPiece {text : List Char} (piece : Piece Token) (nonempty : text ≠ [])
    (read : ∀ rest, EndsToken rest → readPiece (text ++ rest) = some (piece, rest)) :
    Lexes text [withText text piece] :=
  fun rest ends => lexemes?_of_readPiece nonempty (read rest ends)

theorem lexesFreely_of_readPiece {text : List Char} (piece : Piece Token) (nonempty : text ≠ [])
    (read : ∀ rest, readPiece (text ++ rest) = some (piece, rest)) :
    LexesFreely text [withText text piece] :=
  fun rest => lexemes?_of_readPiece nonempty (read rest)

theorem lexesFreely_skipped {c : Char} (skipped : isSkipped c = true) : LexesFreely [c] [] := by
  intro rest
  rw [List.singleton_append, Token.lexemes?, if_pos skipped]
  simp

/-! Names, numbers and strings. -/

theorem isName_iff {name : String} :
    isName name = true ↔
      ∃ first rest, name.toList = first :: rest ∧ isNameStart first = true ∧
        rest.all isNameContinue = true := by
  unfold isName
  split
  · rename_i empty
    simp [empty]
  · rename_i first rest written
    simp [written]

def nameLexeme (name : String) : Lexeme :=
  ⟨.name name, name.toList⟩

theorem lexes_name {name : String} (valid : isName name = true) :
    Lexes name.toList [.token (nameLexeme name)] := by
  obtain ⟨first, others, written, start, continued⟩ := isName_iff.mp valid
  have read : ∀ rest, EndsToken rest →
      readPiece (name.toList ++ rest) = some (.token (.name name), rest) := by
    intro rest ends
    have continued : ∀ c ∈ others, isNameContinue c = true := List.all_eq_true.mp continued
    have stopped : rest.takeWhile isNameContinue = [] ∧ rest.dropWhile isNameContinue = rest := by
      cases rest with
      | nil => exact ⟨rfl, rfl⟩
      | cons c rest =>
          have stop : isNameContinue c = false := (ends c rfl).1
          simp [stop]
    rw [written, List.cons_append, readPiece_of_isNameStart start, readName,
      List.takeWhile_append_of_pos continued, List.dropWhile_append_of_pos continued,
      stopped.1, stopped.2, List.append_nil, ← written, String.ofList_toList]
  exact lexes_of_readPiece _ (by simp [written]) read

theorem lexes_integer (n : Int) : Lexes (Integer.write n) [.token ⟨.int n, Integer.write n⟩] := by
  have nonempty : Integer.write n ≠ [] := by simp [Integer.write]
  apply lexes_of_readPiece (.token (.int n)) nonempty
  intro rest ends
  have read := Numeral.read_integer n ends.numeralEnds
  obtain ⟨c, text, written⟩ := List.exists_cons_of_ne_nil nonempty
  rw [written, List.cons_append] at read ⊢
  exact readPiece_of_numeral read ends.endsNumber

theorem lexes_double {x : Double} (finite : x.isFinite = true) :
    Lexes x.text [.token ⟨.float x.readAs, x.text⟩] := by
  have nonempty : x.text ≠ [] := by
    intro empty
    have read := Double.read_text finite endsToken_nil.numeralEnds
    rw [empty] at read
    contradiction
  apply lexes_of_readPiece (.token (.float x.readAs)) nonempty
  intro rest ends
  have read := Double.read_text finite ends.numeralEnds
  obtain ⟨c, text, written⟩ := List.exists_cons_of_ne_nil nonempty
  rw [written, List.cons_append] at read ⊢
  exact readPiece_of_numeral read ends.endsNumber

theorem stringDialect_isLenient : stringDialect.IsLenient := by
  intro c escape
  simp only [stringDialect, isLineEnd, Bool.or_eq_true, beq_iff_eq] at escape
  rcases escape with rfl | rfl
  · decide
  · decide

/-- A quote opens a string, unless it is the first of three. -/
theorem readPiece_quote {text : List Char} (single : ∀ rest, text ≠ '"' :: '"' :: rest) :
    readPiece ('"' :: text) =
      (Text.StringLiteral.read stringDialect text).map fun (content, rest) =>
        (.token (.str (String.ofList content)), rest) := by
  unfold readPiece
  split
  case h_15 =>
    rename_i same
    exact absurd (List.cons.inj same).2 (single _)
  case h_16 =>
    rename_i same
    obtain ⟨_, rfl⟩ := List.cons.inj same
    rfl
  case h_17 =>
    rename_i noQuote same
    exact absurd (List.cons.inj same).1.symm noQuote
  case h_18 => contradiction
  all_goals
    rename_i same
    exact absurd (List.cons.inj same).1 (by decide)

theorem escapedChar_ne_quote (c : Char) (rest : List Char) :
    ∀ after, Text.StringLiteral.escapedChar c ++ rest ≠ '"' :: after := by
  intro after same
  rcases Text.StringLiteral.escapedChar_cases stringDialect c with
    ⟨escape, written, _⟩ | ⟨written, noQuote, _⟩
  · rw [written] at same
    exact absurd (List.cons.inj same).1 (by decide)
  · rw [written] at same
    exact noQuote (List.cons.inj same).1

theorem lexes_string (content : List Char) :
    Lexes (Text.StringLiteral.write content)
      [.token ⟨.str (String.ofList content), Text.StringLiteral.write content⟩] := by
  refine lexes_of_readPiece (.token (.str (String.ofList content))) (by
    simp [Text.StringLiteral.write]) fun rest ends => ?_
  have single : ∀ after,
      content.flatMap Text.StringLiteral.escapedChar ++ '"' :: rest ≠ '"' :: '"' :: after := by
    intro after same
    cases content with
    | nil =>
        obtain ⟨_, tail⟩ := List.cons.inj same
        rw [tail] at ends
        exact (ends '"' rfl).2.2 rfl
    | cons c content =>
        rw [List.flatMap_cons, List.append_assoc] at same
        exact escapedChar_ne_quote c _ _ same
  have written : Text.StringLiteral.write content ++ rest =
      '"' :: (content.flatMap Text.StringLiteral.escapedChar ++ '"' :: rest) := by
    simp [Text.StringLiteral.write]
  rw [written, readPiece_quote single,
    Text.StringLiteral.read_flatMap_escapedChar stringDialect_isLenient]
  rfl

/-! Marks, brackets and what stands between tokens. -/

theorem lexesFreely_opening (bracket : Bracket) :
    LexesFreely [bracket.openingChar] [.opening bracket] := by
  cases bracket with
  | round => exact lexesFreely_of_readPiece (.opening .round) (by simp) fun _ => rfl
  | square => exact lexesFreely_of_readPiece (.opening .square) (by simp) fun _ => rfl
  | curly => exact lexesFreely_of_readPiece (.opening .curly) (by simp) fun _ => rfl

theorem lexesFreely_closing (bracket : Bracket) :
    LexesFreely [bracket.closingChar] [.closing bracket] := by
  cases bracket with
  | round => exact lexesFreely_of_readPiece (.closing .round) (by simp) fun _ => rfl
  | square => exact lexesFreely_of_readPiece (.closing .square) (by simp) fun _ => rfl
  | curly => exact lexesFreely_of_readPiece (.closing .curly) (by simp) fun _ => rfl

theorem endsToken_closing (bracket : Bracket) (rest : List Char) :
    EndsToken (bracket.closingChar :: rest) := by
  cases bracket <;> exact .of_cons rest (by decide)

theorem LexesFreely.comp {first second : List Char} {before after : List (Piece Lexeme)}
    (firstLexes : LexesFreely first before) (secondLexes : LexesFreely second after) :
    LexesFreely (first ++ second) (before ++ after) := by
  intro rest
  rw [List.append_assoc, firstLexes, secondLexes]
  simp [Function.comp_def]

/-- A closing bracket ends the last token inside it. -/
theorem Lexes.surround {text : List Char} {pieces : List (Piece Lexeme)} (bracket : Bracket)
    (inside : Lexes text pieces) :
    Lexes (bracket.openingChar :: text ++ [bracket.closingChar])
      (.opening bracket :: pieces ++ [.closing bracket]) :=
  Lexes.append ((lexesFreely_opening bracket).append inside) (lexesFreely_closing bracket).lexes
    fun rest _ => endsToken_closing bracket rest

theorem lexesFreely_blank {blank : List Char} (skipped : ∀ c ∈ blank, isSkipped c = true) :
    LexesFreely blank [] := by
  induction blank with
  | nil => exact lexesFreely_nil
  | cons c blank inductionHypothesis =>
      have rest := inductionHypothesis fun d member => skipped d (List.mem_cons_of_mem c member)
      exact (lexesFreely_skipped (skipped c List.mem_cons_self)).comp rest

theorem endsToken_skipped {c : Char} (skipped : isSkipped c = true) (rest : List Char) :
    EndsToken (c :: rest) := by
  have checked : [' ', '\t', ',', '\n', '\r', '\uFEFF'].all (fun blank =>
      !isNameContinue blank && blank != '.' && blank != '"') = true := by decide
  have ends := List.all_eq_true.mp checked c (by simpa [isSkipped] using skipped)
  exact .of_cons rest (by simpa [and_assoc] using ends)

theorem space_skipped : ∀ c ∈ [' '], isSkipped c = true :=
  List.forall_mem_singleton.mpr (by decide)

theorem lexesFreely_space : LexesFreely [' '] [] :=
  lexesFreely_skipped (by decide)

/-- Spaces on both sides change nothing. -/
theorem Lexes.padded {text : List Char} {pieces : List (Piece Lexeme)} (lexes : Lexes text pieces) :
    Lexes (' ' :: text ++ [' ']) pieces := by
  have padded := (lexesFreely_space.append lexes).append lexesFreely_space.lexes
    fun rest _ => endsToken_skipped (by decide) rest
  simpa using padded

/-- Two texts that lex can be joined by a blank between them. -/
theorem Lexes.append_blank {first second blank : List Char} {before after : List (Piece Lexeme)}
    (nonempty : blank ≠ []) (skipped : ∀ c ∈ blank, isSkipped c = true)
    (firstLexes : Lexes first before) (secondLexes : Lexes second after) :
    Lexes (first ++ blank ++ second) (before ++ after) := by
  rw [List.append_assoc]
  apply firstLexes.append ((lexesFreely_blank skipped).append secondLexes)
  intro rest _
  obtain ⟨c, others, rfl⟩ := List.exists_cons_of_ne_nil nonempty
  exact endsToken_skipped (skipped c List.mem_cons_self) _

/-- So can any number of texts. -/
theorem lexes_intercalate {α : Type} {blank : List Char} (nonempty : blank ≠ [])
    (skipped : ∀ c ∈ blank, isSkipped c = true) {items : List α} {text : α → List Char}
    {pieces : α → List (Piece Lexeme)} (each : ∀ item ∈ items, Lexes (text item) (pieces item)) :
    Lexes (List.intercalate blank (items.map text)) (items.flatMap pieces) := by
  induction items with
  | nil => exact lexesFreely_nil.lexes
  | cons item rest inductionHypothesis =>
      have first := each item List.mem_cons_self
      have others := inductionHypothesis fun other member =>
        each other (List.mem_cons_of_mem item member)
      cases rest with
      | nil => simpa using first
      | cons next rest =>
          rw [List.map_cons, List.map_cons, List.intercalate_cons_cons, ← List.map_cons,
            List.flatMap_cons]
          exact first.append_blank nonempty skipped others

end Token

end GraphQL

end Toolsmith

import Mathlib.Data.List.TakeWhile
import Toolsmith.Json.Surrogate

/-!
A text that is read as it stands. Surrogates are filled in at a backslash that starts no escape, and
in JSON text without lone surrogates there is no such backslash: a reader that gets to the end of the
text has passed each backslash as part of an escape. So stand-ins change no text that could be read
without them.
-/

set_option autoImplicit false

namespace Toolsmith

/-! What a reader leaves is the end of what it was given. -/

namespace Text.StringLiteral

variable {text rest : List Char} {c : Char}

theorem suffix_of_readUnit {unit : Nat} (read : readUnit text = some (unit, rest)) :
    rest <:+ text := by
  unfold readUnit at read
  split at read
  · simp only [Option.map_eq_some_iff, Prod.mk.injEq] at read
    obtain ⟨_, _, _, rfl⟩ := read
    exact List.suffix_append [_, _, _, _] _
  · contradiction

theorem suffix_of_readUnits (read : readUnits text = some (c, rest)) : rest <:+ text := by
  unfold readUnits at read
  split at read
  · contradiction
  · rename_i leadingRead
    have suffix := suffix_of_readUnit leadingRead
    split at read
    · split at read
      · split at read
        · contradiction
        · rename_i trailingRead
          split at read
          · simp only [Option.map_eq_some_iff, Prod.mk.injEq] at read
            obtain ⟨_, _, _, rfl⟩ := read
            have behind := suffix_of_readUnit trailingRead
            exact (behind.trans ⟨['\\', 'u'], rfl⟩).trans suffix
          · contradiction
      · contradiction
    · simp only [Option.map_eq_some_iff, Prod.mk.injEq] at read
      obtain ⟨_, _, _, rfl⟩ := read
      exact suffix

theorem suffix_of_readBraced (read : readBraced text = some (c, rest)) : rest <:+ text := by
  simp only [readBraced] at read
  split at read
  · rename_i after
    have suffix := List.dropWhile_suffix (l := text) fun c => (hexValue? c).isSome
    rw [after] at suffix
    split at read
    · simp only [Option.map_eq_some_iff, Prod.mk.injEq] at read
      obtain ⟨_, _, _, rfl⟩ := read
      exact (List.suffix_cons _ _).trans suffix
    · contradiction
  · contradiction

theorem suffix_of_readEscape {dialect : Dialect} (read : readEscape dialect text = some (c, rest)) :
    rest <:+ text := by
  unfold readEscape at read
  split at read
  case h_9 =>
    split at read
    · exact (suffix_of_readBraced read).trans ⟨['u', '{'], rfl⟩
    · contradiction
  case h_10 => exact (suffix_of_readUnits read).trans (List.suffix_cons _ _)
  case h_11 => contradiction
  all_goals
    obtain ⟨-, rfl⟩ := Prod.mk.inj (Option.some.inj read)
    exact List.suffix_cons _ _

end Text.StringLiteral

namespace Json.Surrogate

open Text.StringLiteral (suffix_of_readEscape)

variable {standIn : Nat → Char} {text middle rest : List Char}

/-- Nothing is filled in between the front of a text and the end that is left of it. -/
def Passes (standIn : Nat → Char) (text rest : List Char) : Prop :=
  ∃ taken, text = taken ++ rest ∧ fillChars standIn text = taken ++ fillChars standIn rest

namespace Passes

theorem refl (standIn : Nat → Char) (text : List Char) : Passes standIn text text :=
  ⟨[], rfl, rfl⟩

theorem trans (first : Passes standIn text middle) (second : Passes standIn middle rest) :
    Passes standIn text rest := by
  obtain ⟨taken, rfl, same⟩ := first
  obtain ⟨further, rfl, sameBehind⟩ := second
  exact ⟨taken ++ further, by rw [List.append_assoc], by rw [same, sameBehind, List.append_assoc]⟩

theorem of_char {c : Char} (plain : c ≠ '\\') (rest : List Char) :
    Passes standIn (c :: rest) rest := by
  refine ⟨[c], rfl, ?_⟩
  rw [fillChars]
  · rfl
  · exact fun same => absurd same plain

theorem of_escape {c : Char} (read : Text.StringLiteral.readEscape Token.stringDialect text =
    some (c, rest)) : Passes standIn ('\\' :: text) rest := by
  obtain ⟨taken, rfl⟩ := suffix_of_readEscape read
  refine ⟨'\\' :: taken, rfl, ?_⟩
  rw [fillChars]
  split
  · rename_i after read'
    obtain ⟨-, rfl⟩ := Prod.mk.inj (Option.some.inj (read.symm.trans read'))
    simp
  · rename_i none
    rw [read] at none
    contradiction

/-- Backslashes are the only places where something can be filled in. -/
theorem of_plain {taken : List Char} (plain : ∀ c ∈ taken, c ≠ '\\') (rest : List Char) :
    Passes standIn (taken ++ rest) rest := by
  induction taken with
  | nil => exact refl standIn rest
  | cons c taken inductionHypothesis =>
      rw [List.forall_mem_cons] at plain
      exact (of_char plain.1 _).trans (inductionHypothesis plain.2)

theorem eq_of_nil (passes : Passes standIn text []) : fillChars standIn text = text := by
  obtain ⟨taken, rfl, same⟩ := passes
  rw [same, List.append_nil, fillChars, List.append_nil]

end Passes

/-! Readers. -/

theorem passes_takeDigits (text : List Char) :
    Passes standIn text (Numeral.takeDigits text).2 := by
  have plain : ∀ c ∈ text.takeWhile Char.isDigit, c ≠ '\\' := by
    rintro c member rfl
    exact absurd (List.mem_takeWhile_imp member) (by decide)
  have passes : Passes standIn (text.takeWhile Char.isDigit ++ text.dropWhile Char.isDigit)
      (text.dropWhile Char.isDigit) := .of_plain plain _
  rwa [List.takeWhile_append_dropWhile] at passes

theorem passes_takeSign (text : List Char) : Passes standIn text (Numeral.takeSign text).2 := by
  unfold Numeral.takeSign
  split
  · exact .of_char (by decide) _
  · exact .refl standIn text

theorem passes_takeAnySign (text : List Char) :
    Passes standIn text (Numeral.takeAnySign text).2 := by
  unfold Numeral.takeAnySign
  split
  · exact .of_char (by decide) _
  · exact .of_char (by decide) _
  · exact .refl standIn text

theorem passes_readWhole {digits : List Char}
    (read : Numeral.readWhole text = some (digits, rest)) : Passes standIn text rest := by
  have passes : Passes standIn text (Numeral.takeDigits text).2 := passes_takeDigits text
  unfold Numeral.readWhole at read
  split at read
  · obtain ⟨-, rfl⟩ := Prod.mk.inj (Option.some.inj read)
    exact .of_char (by decide) _
  · split at read
    · contradiction
    · rwa [Option.some.inj read] at passes

theorem passes_readFraction (text : List Char) :
    Passes standIn text (Numeral.readFraction text).2 := by
  unfold Numeral.readFraction
  split
  · rename_i behind
    have passes : Passes standIn behind (Numeral.takeDigits behind).2 := passes_takeDigits behind
    split
    · exact .refl standIn _
    · rename_i taken
      rw [taken] at passes
      exact (Passes.of_char (by decide) _).trans passes
  · exact .refl standIn text

theorem passes_readExponent (text : List Char) :
    Passes standIn text (Numeral.readExponent text).2 := by
  unfold Numeral.readExponent
  split
  · rename_i c behind
    split
    · rename_i letter
      have plain : c ≠ '\\' := by rcases letter with rfl | rfl <;> decide
      split
      rename_i afterSign sign
      have signPasses : Passes standIn behind (Numeral.takeAnySign behind).2 :=
        passes_takeAnySign behind
      have passes : Passes standIn afterSign (Numeral.takeDigits afterSign).2 :=
        passes_takeDigits afterSign
      rw [sign] at signPasses
      split
      · exact .refl standIn _
      · rename_i taken
        rw [taken] at passes
        exact ((Passes.of_char plain _).trans signPasses).trans passes
    · exact .refl standIn _
  · exact .refl standIn _

theorem passes_numeral {numeral : Numeral} (read : Numeral.read text = some (numeral, rest)) :
    Passes standIn text rest := by
  simp only [Numeral.read] at read
  split at read
  · contradiction
  · rename_i whole afterWhole wholeRead
    obtain ⟨-, rfl⟩ := Prod.mk.inj (Option.some.inj read)
    exact (((passes_takeSign text).trans (passes_readWhole wholeRead)).trans
      (passes_readFraction afterWhole)).trans (passes_readExponent _)

theorem passes_readWord {token : Token} (read : Token.readWord text = some (token, rest)) :
    Passes standIn text rest := by
  simp only [Token.readWord, Option.map_eq_some_iff, Prod.mk.injEq] at read
  obtain ⟨⟨word, value⟩, found, -, rfl⟩ := read
  have plain : ∀ known ∈ Token.words, ∀ c ∈ known.1, c ≠ '\\' := by
    have checked : (Token.words.all fun known => known.1.all (· != '\\')) = true := rfl
    simpa only [List.all_eq_true, bne_iff_ne] using checked
  have fits : word <+: text := by simpa using List.find?_some found
  obtain ⟨behind, rfl⟩ := fits
  rw [List.drop_left]
  exact .of_plain (plain _ (List.mem_of_find?_eq_some found)) behind

theorem passes_string {content : List Char}
    (read : Text.StringLiteral.read Token.stringDialect text = some (content, rest)) :
    Passes standIn text rest := by
  fun_induction Text.StringLiteral.read Token.stringDialect text generalizing content with
  | case1 => contradiction
  | case2 =>
      obtain ⟨-, rfl⟩ := Prod.mk.inj (Option.some.inj read)
      exact .of_char (by decide) _
  | case3 => contradiction
  | case4 text c after escape inductionHypothesis =>
      simp only [Option.map_eq_some_iff, Prod.mk.injEq] at read
      obtain ⟨⟨inner, left⟩, innerRead, -, rfl⟩ := read
      exact (Passes.of_escape escape).trans (inductionHypothesis innerRead)
  | case5 => contradiction
  | case6 c text _ noBackslash _ inductionHypothesis =>
      simp only [Option.map_eq_some_iff, Prod.mk.injEq] at read
      obtain ⟨⟨inner, left⟩, innerRead, -, rfl⟩ := read
      exact (Passes.of_char noBackslash _).trans (inductionHypothesis innerRead)

theorem passes_readPiece {piece : Piece Token}
    (read : Token.readPiece text = some (piece, rest)) : Passes standIn text rest := by
  unfold Token.readPiece at read
  split at read
  case h_7 =>
    simp only [Option.map_eq_some_iff, Prod.mk.injEq] at read
    obtain ⟨⟨content, left⟩, contentRead, -, rfl⟩ := read
    exact (Passes.of_char (by decide) _).trans (passes_string contentRead)
  case h_8 =>
    split at read
    · rename_i wordRead
      obtain ⟨-, rfl⟩ := Prod.mk.inj (Option.some.inj read)
      exact passes_readWord wordRead
    · simp only [Option.map_eq_some_iff, Prod.mk.injEq] at read
      obtain ⟨⟨numeral, left⟩, numeralRead, -, rfl⟩ := read
      exact passes_numeral numeralRead
  all_goals
    obtain ⟨-, rfl⟩ := Prod.mk.inj (Option.some.inj read)
    exact .of_char (by decide) _

theorem passes_pieces? {pieces : List (Piece Token)} (read : Token.pieces? text = some pieces) :
    Passes standIn text [] := by
  fun_induction Token.pieces? text generalizing pieces with
  | case1 => exact .refl standIn []
  | case2 c rest skipped inductionHypothesis =>
      have plain : c ≠ '\\' := by
        rintro rfl
        exact absurd skipped (by decide)
      exact (Passes.of_char plain rest).trans (inductionHypothesis read)
  | case3 => contradiction
  | case4 c rest _ piece after pieceRead inductionHypothesis =>
      obtain ⟨others, othersRead, -⟩ := Option.map_eq_some_iff.mp read
      exact (passes_readPiece pieceRead).trans (inductionHypothesis othersRead)

/-- What can be read without stand-ins has no place for them. -/
theorem fill_of_pieces? {text : String} {pieces : List (Piece Token)}
    (read : Token.pieces? text.toList = some pieces) (standIn : Nat → Char) :
    fill standIn text = text := by
  rw [fill, (passes_pieces? read).eq_of_nil, String.ofList_toList]

theorem fill_of_read? {text : String} {json : Json} (read : read? text = some json)
    (standIn : Nat → Char) : fill standIn text = text := by
  obtain ⟨pieces, piecesRead, -⟩ := Option.bind_eq_some_iff.mp read
  exact fill_of_pieces? piecesRead standIn

/-- Half of a pair is filled in, the two halves of one are left for the reader. -/
example :
    fill commonStandIn "\"\\ud83d\\ude00 \\\\ud83d \\ud83d\"" =
      "\"\\ud83d\\ude00 \\\\ud83d \ufffd\"" := by
  decide +kernel

/-! Code points. -/

theorem toNat_ownStandIn {unit : Nat} (surrogate : 0xD800 ≤ unit ∧ unit < 0xE000) :
    (ownStandIn unit).toNat = unit + 0x102000 := by
  have valid : (unit + 0x102000).isValidChar := .inr (by omega)
  rw [ownStandIn, Char.ofNat, dif_pos valid]
  rfl

/-- A surrogate is told from what stands in for it, whatever else the text holds. -/
theorem pointsOf_standIn {unit : Nat} (surrogate : 0xD800 ≤ unit ∧ unit < 0xE000)
    (rest others : List Char) :
    pointsOf (ownStandIn unit :: rest) (commonStandIn unit :: others) =
      .surrogate unit :: pointsOf rest others := by
  have toNat := toNat_ownStandIn surrogate
  have different : ownStandIn unit ≠ commonStandIn unit := by
    intro same
    rw [same, commonStandIn] at toNat
    have small : unit + 0x102000 = 0xfffd := toNat.symm
    omega
  rw [pointsOf, if_neg different, toNat, Nat.add_sub_cancel]

/-- A text that is read the same with all stand-ins holds no surrogate. -/
theorem pointsOf_self (text : List Char) : pointsOf text text = text.map .char := by
  induction text with
  | nil => rfl
  | cons c rest inductionHypothesis =>
      rw [pointsOf, if_pos rfl, inductionHypothesis, List.map_cons]

end Json.Surrogate

end Toolsmith

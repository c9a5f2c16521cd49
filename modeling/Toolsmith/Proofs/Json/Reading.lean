import Toolsmith.Proofs.Json.Printing
import Toolsmith.Proofs.Json.Tree
import Toolsmith.Proofs.Number.Numeral
import Toolsmith.Proofs.Text.Spelling

/-!
JSON texts read back. A text of a value holds the pieces of its tree, each in one of its spellings
and with blanks wherever there is room for them, and it is read as that value. The printed texts are
such texts, in every layout.
-/

set_option autoImplicit false

namespace Toolsmith.Json

open Grammar (Collection)

def Grammar.Collection.bracket : Collection → Bracket
  | array => .square
  | object => .curly

namespace Token

/-! Spellings. -/

/-- A piece at the front of a text, in one of its spellings, and what follows it. A number is as
long as it can be. -/
inductive Starts : Piece Token → List Char → List Char → Prop
  | comma (rest : List Char) : Starts (.token .comma) (',' :: rest) rest
  | colon (rest : List Char) : Starts (.token .colon) (':' :: rest) rest
  | opening (collection : Collection) (rest : List Char) :
      Starts (.opening collection.bracket) (collection.opening :: rest) rest
  | closing (collection : Collection) (rest : List Char) :
      Starts (.closing collection.bracket) (collection.closing :: rest) rest
  | word {word : List Char} {value : Json} (known : (word, value) ∈ words) (rest : List Char) :
      Starts (.token (.scalar value)) (word ++ rest) rest
  | integer (value : Int) {rest : List Char} (ends : Numeral.Ends rest) :
      Starts (.token (.scalar (.int value))) (Integer.write value ++ rest) rest
  | float {value : Double} (finite : value.isFinite = true) {rest : List Char}
      (ends : Numeral.Ends rest) :
      Starts (.token (.scalar (.float value))) (value.text ++ rest) rest
  | string {content spelling : List Char} (spells : Text.StringLiteral.Spells content spelling)
      (rest : List Char) :
      Starts (.token (.scalar (.str (String.ofList content)))) ('"' :: spelling ++ '"' :: rest) rest

/-- A text of pieces, with blanks around them. -/
inductive Spells : List (Piece Token) → List Char → Prop
  | nil : Spells [] []
  | blank {c : Char} {pieces : List (Piece Token)} {text : List Char} (skipped : isSkipped c = true)
      (others : Spells pieces text) : Spells pieces (c :: text)
  | piece {piece : Piece Token} {pieces : List (Piece Token)} {text rest : List Char}
      (starts : Starts piece text rest) (others : Spells pieces rest) :
      Spells (piece :: pieces) text

/-! Reading pieces. -/

/-- No word starts with a number, and a number starts with no word. -/
theorem readWord_of_numeral {text rest : List Char} {numeral : Numeral}
    (read : Numeral.read text = some (numeral, rest)) : readWord text = none := by
  have noNumeral : ∀ word ∈ words, ∀ behind, Numeral.read (word.1 ++ behind) = none := by
    simp only [words, List.forall_mem_cons, List.not_mem_nil]
    exact ⟨fun _ => rfl, fun _ => rfl, fun _ => rfl, fun _ => rfl, fun _ => rfl, fun _ => rfl,
      fun _ none => none.elim⟩
  rw [readWord, Option.map_eq_none_iff, List.find?_eq_none]
  intro word member fits
  obtain ⟨behind, rfl⟩ := List.isPrefixOf_iff_prefix.mp fits
  rw [noNumeral word member behind] at read
  contradiction

theorem readPiece_of_numeral {text rest : List Char} {numeral : Numeral}
    (read : Numeral.read text = some (numeral, rest)) :
    readPiece text = some (.token (ofNumeral numeral), rest) := by
  unfold readPiece
  split
  case h_8 => simp [readWord_of_numeral read, read]
  all_goals contradiction

theorem stringDialect_isLenient : stringDialect.IsLenient := by
  intro c escape
  simpa [stringDialect] using escape

theorem readPiece_of_starts {piece : Piece Token} {text rest : List Char}
    (starts : Starts piece text rest) : readPiece text = some (piece, rest) := by
  cases starts with
  | comma => rfl
  | colon => rfl
  | opening collection => cases collection <;> rfl
  | closing collection => cases collection <;> rfl
  | word known =>
      simp only [words, List.mem_cons, Prod.mk.injEq, List.not_mem_nil, or_false] at known
      rcases known with ⟨rfl, rfl⟩ | ⟨rfl, rfl⟩ | ⟨rfl, rfl⟩ | ⟨rfl, rfl⟩ | ⟨rfl, rfl⟩ |
        ⟨rfl, rfl⟩ <;> rfl
  | integer value ends => exact readPiece_of_numeral (Numeral.read_integer value ends)
  | float finite ends =>
      rw [readPiece_of_numeral (Double.read_text finite ends), ofNumeral,
        Double.ofDecimal_readAs finite]
  | string spells =>
      rw [List.cons_append, readPiece, spells.read stringDialect_isLenient]
      rfl

theorem readPiece_of_isSkipped {c : Char} (skipped : isSkipped c = true) (rest : List Char) :
    readPiece (c :: rest) = none := by
  simp only [isSkipped, Bool.or_eq_true, beq_iff_eq] at skipped
  rcases skipped with ((rfl | rfl) | rfl) | rfl <;> rfl

theorem pieces?_of_readPiece {piece : Piece Token} {text rest : List Char}
    (read : readPiece text = some (piece, rest)) :
    pieces? text = (pieces? rest).map (piece :: ·) := by
  cases text with
  | nil => contradiction
  | cons c text =>
      have start : ¬ isSkipped c = true := by
        intro skipped
        rw [readPiece_of_isSkipped skipped] at read
        contradiction
      rw [pieces?, if_neg start]
      split
      · simp_all
      · simp_all

theorem pieces?_of_spells {pieces : List (Piece Token)} {text : List Char}
    (spells : Spells pieces text) : pieces? text = some pieces := by
  induction spells with
  | nil => rw [pieces?]
  | blank skipped _ inductionHypothesis => rw [pieces?, if_pos skipped, inductionHypothesis]
  | piece starts _ inductionHypothesis =>
      rw [pieces?_of_readPiece (readPiece_of_starts starts), inductionHypothesis]
      rfl

/-! What is read is flat. -/

theorem isFlat_of_readWord {text rest : List Char} {token : Token}
    (read : readWord text = some (token, rest)) : token.IsFlat := by
  obtain ⟨⟨word, value⟩, found, made⟩ := Option.map_eq_some_iff.mp read
  obtain ⟨rfl, -⟩ := Prod.mk.inj made
  have known := List.mem_of_find?_eq_some found
  simp only [words, List.mem_cons, Prod.mk.injEq, List.not_mem_nil, or_false] at known
  rcases known with ⟨-, rfl⟩ | ⟨-, rfl⟩ | ⟨-, rfl⟩ | ⟨-, rfl⟩ | ⟨-, rfl⟩ | ⟨-, rfl⟩ <;>
    exact ⟨rfl, rfl⟩

theorem isFlat_ofNumeral (numeral : Numeral) : (ofNumeral numeral).IsFlat := by
  cases numeral <;> exact ⟨rfl, rfl⟩

theorem isFlat_of_readPiece {text rest : List Char} {token : Token}
    (read : readPiece text = some (.token token, rest)) : token.IsFlat := by
  unfold readPiece at read
  split at read
  case h_7 =>
    obtain ⟨content, -, made⟩ := Option.map_eq_some_iff.mp read
    simp only [Prod.mk.injEq, Piece.token.injEq] at made
    obtain ⟨rfl, -⟩ := made
    exact ⟨rfl, rfl⟩
  case h_8 =>
    split at read
    · rename_i found
      simp only [Option.some.injEq, Prod.mk.injEq, Piece.token.injEq] at read
      obtain ⟨rfl, -⟩ := read
      exact isFlat_of_readWord found
    · obtain ⟨⟨numeral, left⟩, -, made⟩ := Option.map_eq_some_iff.mp read
      simp only [Prod.mk.injEq, Piece.token.injEq] at made
      obtain ⟨rfl, -⟩ := made
      exact isFlat_ofNumeral numeral
  all_goals
    simp only [Option.some.injEq, Prod.mk.injEq, Piece.token.injEq, reduceCtorEq, false_and] at read
    try
      obtain ⟨rfl, -⟩ := read
      trivial

theorem isFlat_of_pieces? {text : List Char} {pieces : List (Piece Token)}
    (read : pieces? text = some pieces) {token : Token} (member : .token token ∈ pieces) :
    token.IsFlat := by
  fun_induction pieces? text generalizing pieces with
  | case1 =>
      obtain rfl := Option.some.inj read
      contradiction
  | case2 c rest _ inductionHypothesis => exact inductionHypothesis read member
  | case3 => contradiction
  | case4 c rest _ piece after found inductionHypothesis =>
      obtain ⟨others, readOthers, rfl⟩ := Option.map_eq_some_iff.mp read
      rcases List.mem_cons.mp member with rfl | later
      · exact isFlat_of_readPiece found
      · exact inductionHypothesis readOthers later

end Token

/-! Reading texts. -/

/-- A text that is read holds the pieces of a value, and what is read is that value with the members
of its objects put together. -/
theorem read?_eq_some_iff {text : String} {json : Json} :
    read? text = some json ↔
      ∃ source : Json, Token.pieces? text.toList = some source.tree.pieces ∧
        source.merged = json := by
  simp only [read?, Option.bind_eq_bind, Option.bind_eq_some_iff]
  constructor
  · rintro ⟨pieces, readPieces, trees, readTrees, read⟩
    split at read
    · rename_i tree
      have whole : tree.pieces = pieces := by
        simpa using Tree.flatMap_pieces_of_ofPieces? readTrees
      have flat : TreesAreFlat [tree] := by
        intro other member token inside
        obtain rfl := List.mem_singleton.mp member
        exact Token.isFlat_of_pieces? readPieces (whole ▸ inside)
      obtain ⟨source, rfl, made⟩ := exists_of_ofTree? tree flat read
      exact ⟨source, whole ▸ readPieces, made⟩
    · contradiction
  · rintro ⟨source, readPieces, rfl⟩
    have trees : Tree.ofPieces? source.tree.pieces = some [source.tree] := by
      simpa using Tree.ofPieces?_flatMap_pieces [source.tree]
    exact ⟨_, readPieces, _, trees, ofTree?_tree source⟩

theorem hasDistinctKeys_of_read? {text : String} {json : Json} (read : read? text = some json) :
    json.HasDistinctKeys := by
  obtain ⟨source, -, rfl⟩ := read?_eq_some_iff.mp read
  exact hasDistinctKeys_merged source

/-- The texts of a value, with blanks between the pieces and escapes in strings as one likes. -/
def IsTextOf (text : String) (json : Json) : Prop :=
  Token.Spells json.tree.pieces text.toList

theorem read?_of_isTextOf {text : String} {json : Json} (isText : IsTextOf text json) :
    read? text = some json.merged :=
  read?_eq_some_iff.mpr ⟨json, Token.pieces?_of_spells isText, rfl⟩

/-! Printed texts. -/

namespace Token

/-- A text of pieces, in front of whatever ends a number. -/
def Fits (pieces : List (Piece Token)) (text : List Char) : Prop :=
  ∀ (more : List (Piece Token)) (rest : List Char), Numeral.Ends rest → Spells more rest →
    Spells (pieces ++ more) (text ++ rest)

theorem ends_of_cons {c : Char} (rest : List Char)
    (other : c.isDigit = false ∧ c ≠ '.' ∧ c ≠ 'e' ∧ c ≠ 'E') : Numeral.Ends (c :: rest) := by
  obtain ⟨noDigit, noPoint, noExponent⟩ := other
  constructor
  · exact fun _ member => Option.mem_some_iff.mp member ▸ noDigit
  · exact fun _ member => Option.mem_some_iff.mp member ▸ noPoint
  · exact fun _ member => Option.mem_some_iff.mp member ▸ noExponent

theorem ends_nil : Numeral.Ends [] :=
  ⟨nofun, nofun, nofun⟩

theorem ends_closing (collection : Collection) (rest : List Char) :
    Numeral.Ends (collection.closing :: rest) := by
  cases collection <;> exact ends_of_cons rest (by decide)

theorem spells_of_blanks {text rest : List Char} (blanks : Grammar.Blanks text rest)
    {pieces : List (Piece Token)} (spells : Spells pieces rest) : Spells pieces text := by
  induction blanks with
  | none => exact spells
  | more blank _ inductionHypothesis =>
      refine .blank ?_ (inductionHypothesis spells)
      simpa [isSkipped, or_assoc] using blank

theorem ends_of_blanks {text rest : List Char} (blanks : Grammar.Blanks text rest)
    (ends : Numeral.Ends rest) : Numeral.Ends text := by
  cases blanks with
  | none => exact ends
  | more blank _ =>
      simp only [List.mem_cons, List.not_mem_nil, or_false] at blank
      rcases blank with rfl | rfl | rfl | rfl <;> exact ends_of_cons _ (by decide)

theorem fits_scalar {value : Json} {text : List Char} (leaf : value.tree = .leaf (.scalar value))
    (starts : ∀ rest, Numeral.Ends rest → Starts (.token (.scalar value)) (text ++ rest) rest) :
    Fits value.tree.pieces text := by
  rw [leaf, Tree.pieces]
  exact fun _ rest ends others => .piece (starts rest ends) others

theorem starts_write (value : String) (rest : List Char) :
    Starts (.token (.scalar (.str value)))
      (Text.StringLiteral.write value.toList ++ rest) rest := by
  have starts := Starts.string
    (Text.StringLiteral.spells_flatMap_escapedChar value.toList) rest
  rwa [String.ofList_toList, List.cons_append, ← Grammar.write_append] at starts

theorem fits_floatText (value : Double) :
    Fits (Json.float value).tree.pieces (floatText value) := by
  apply fits_scalar rfl
  intro rest ends
  cases value with
  | finite negative significand exponent canonical => exact .float rfl ends
  | infinite negative =>
      cases negative with
      | true => exact .word (by decide) rest
      | false => exact .word (by decide) rest
  | nan => exact .word (by decide) rest

theorem fits_intercalate {α : Type} {gap : List Char}
    (blank : ∀ rest, Grammar.Blanks (gap ++ rest) rest) {items : List α}
    {pieces : α → List (Piece Token)} {text : α → List Char}
    (each : ∀ item ∈ items, Fits (pieces item) (text item)) :
    Fits (List.intercalate [.token .comma] (items.map pieces))
      (List.intercalate (',' :: gap) (items.map text)) := by
  induction items with
  | nil => exact fun _ _ _ others => others
  | cons item rest inductionHypothesis =>
      obtain ⟨first, more⟩ := List.forall_mem_cons.mp each
      cases rest with
      | nil =>
          rw [List.map_singleton, List.map_singleton, List.intercalate_singleton,
            List.intercalate_singleton]
          exact first
      | cons next rest =>
          intro morePieces moreText ends others
          have behind := inductionHypothesis more _ _ ends others
          simp only [List.map_cons, List.intercalate_cons_cons, List.append_assoc,
            List.cons_append, List.nil_append] at behind ⊢
          apply first _ _ (ends_of_cons _ (by decide))
          exact .piece (.comma _) (spells_of_blanks (blank _) behind)

theorem fits_enclose {α : Type} (layout : Layout) (depth : Nat) (collection : Collection)
    {items : List α} {pieces : α → List (Piece Token)} {text : α → List Char}
    (each : ∀ item ∈ items, Fits (pieces item) (text item)) :
    Fits
      (.opening collection.bracket :: List.intercalate [.token .comma] (items.map pieces) ++
        [.closing collection.bracket])
      (enclose layout depth collection.opening collection.closing (items.map text)) := by
  intro more rest ends others
  have closed : Spells (.closing collection.bracket :: more) (collection.closing :: rest) :=
    .piece (.closing collection rest) others
  unfold enclose
  cases items with
  | nil => exact .piece (.opening collection _) closed
  | cons item items =>
      obtain ⟨gap, separated, blank⟩ := Grammar.separator_eq layout (depth + 1)
      have inside := fits_intercalate blank each _ _
        (ends_of_blanks (Grammar.blanks_edge layout depth _) (ends_closing collection rest))
        (spells_of_blanks (Grammar.blanks_edge layout depth _) closed)
      have whole := Spells.piece (.opening collection _)
        (spells_of_blanks (Grammar.blanks_edge layout (depth + 1) _) inside)
      simpa [separated] using whole

end Token

/-- The pieces of a member of an object. -/
def memberPieces (member : String × Json) : List (Piece Token) :=
  .token (.scalar (.str member.1)) :: .token .colon :: member.2.tree.pieces

theorem intercalate_singleton_cons {α : Type} (separator : α) (first : List α)
    (others : List (List α)) :
    List.intercalate [separator] (first :: others) =
      first ++ others.flatMap (separator :: ·) := by
  induction others generalizing first with
  | nil => simp
  | cons next others inductionHypothesis =>
      rw [List.intercalate_cons_cons, inductionHypothesis, List.flatMap_cons]
      simp

theorem flatMap_itemTrees (items : List Json) :
    (itemTrees items).flatMap Tree.pieces =
      List.intercalate [.token .comma] (items.map fun item => item.tree.pieces) := by
  have more : ∀ items : List Json, (moreItemTrees items).flatMap Tree.pieces =
      (items.map fun item => item.tree.pieces).flatMap (.token .comma :: ·) := by
    intro items
    induction items with
    | nil => rfl
    | cons item rest inductionHypothesis =>
        simp [moreItemTrees, Tree.pieces, inductionHypothesis]
  cases items with
  | nil => rfl
  | cons item rest =>
      rw [itemTrees, List.flatMap_cons, more, List.map_cons, intercalate_singleton_cons]

theorem flatMap_memberTrees (members : List (String × Json)) :
    (memberTrees members).flatMap Tree.pieces =
      List.intercalate [.token .comma] (members.map memberPieces) := by
  have more : ∀ members : List (String × Json), (moreMemberTrees members).flatMap Tree.pieces =
      (members.map memberPieces).flatMap (.token .comma :: ·) := by
    intro members
    induction members with
    | nil => rfl
    | cons member rest inductionHypothesis =>
        simp [moreMemberTrees, Tree.pieces, memberPieces, inductionHypothesis]
  cases members with
  | nil => rfl
  | cons member rest =>
      rw [memberTrees, List.map_cons, intercalate_singleton_cons, ← more]
      simp [Tree.pieces, memberPieces]

open Token (Fits)

theorem fits_writeMember {layout : Layout} {depth : Nat} {member : String × Json}
    (value : Fits member.2.tree.pieces (member.2.write layout depth)) :
    Fits (memberPieces member) (Grammar.writeMember layout depth member) := by
  intro more rest ends others
  rw [Grammar.writeMember, List.append_assoc]
  refine .piece (Token.starts_write member.1 _) ?_
  exact .piece (.colon _) (.blank (by decide) (value more rest ends others))

mutual

/-- Every value is printed as one of its texts. -/
theorem fits_write (layout : Layout) (depth : Nat) (json : Json) :
    Fits json.tree.pieces (json.write layout depth) := by
  match json with
  | .null =>
    rw [write]
    exact Token.fits_scalar rfl fun rest _ => .word (by decide) rest
  | .bool true =>
    rw [write]
    exact Token.fits_scalar rfl fun rest _ => .word (by decide) rest
  | .bool false =>
    rw [write]
    exact Token.fits_scalar rfl fun rest _ => .word (by decide) rest
  | .int value => exact Token.fits_scalar rfl fun _ ends => .integer value ends
  | .float value => exact Token.fits_floatText value
  | .str value => exact Token.fits_scalar rfl fun rest _ => Token.starts_write value rest
  | .arr items =>
    rw [tree, Tree.pieces, flatMap_itemTrees, write, Grammar.writeItems_eq_map]
    exact Token.fits_enclose layout depth .array (fits_items layout (depth + 1) items)
  | .obj members =>
    rw [tree, Tree.pieces, flatMap_memberTrees, write, Grammar.writeMembers_eq_map]
    exact Token.fits_enclose layout depth .object fun member held =>
      fits_writeMember (fits_members layout (depth + 1) members member held)

theorem fits_items (layout : Layout) (depth : Nat) (items : List Json) :
    ∀ item ∈ items, Fits item.tree.pieces (item.write layout depth) := by
  match items with
  | [] => exact nofun
  | item :: rest =>
    exact List.forall_mem_cons.mpr
      ⟨fits_write layout depth item, fits_items layout depth rest⟩

theorem fits_members (layout : Layout) (depth : Nat) (members : List (String × Json)) :
    ∀ member ∈ members, Fits member.2.tree.pieces (member.2.write layout depth) := by
  match members with
  | [] => exact nofun
  | (key, value) :: rest =>
    exact List.forall_mem_cons.mpr
      ⟨fits_write layout depth value, fits_members layout depth rest⟩

end

/-- Printed texts are texts of their values, also with blanks behind them. -/
theorem isTextOf_write (layout : Layout) (json : Json) {behind : List Char}
    (blanks : Grammar.Blanks behind []) :
    IsTextOf (String.ofList (json.write layout 0 ++ behind)) json := by
  have spells := fits_write layout 0 json [] behind (Token.ends_of_blanks blanks Token.ends_nil)
    (Token.spells_of_blanks blanks .nil)
  rwa [List.append_nil, ← String.toList_ofList (l := json.write layout 0 ++ behind)] at spells

theorem isTextOf_text (json : Json) : IsTextOf json.text json := by
  simpa [text] using isTextOf_write .compact json (.none [])

theorem isTextOf_indentedText_append (json : Json) :
    IsTextOf (json.indentedText ++ "\n") json := by
  have lineFeed : Grammar.Blanks ['\n'] [] := .more (by decide) (.none [])
  have isText := isTextOf_write .indented json lineFeed
  rwa [String.ofList_append] at isText

end Toolsmith.Json

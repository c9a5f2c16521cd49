import Toolsmith.GraphQL.Literal.Reader
import Toolsmith.Proofs.GraphQL.Lexeme

/-!
Written literals read back. A literal lexes to one tree, and the tree of its tokens is read as the
literal again, provided that its numbers are finite and its names are names.
-/

set_option autoImplicit false

namespace Toolsmith

namespace Tree

variable {α β : Type}

def map (change : α → β) : Tree α → Tree β
  | .leaf value => .leaf (change value)
  | .group bracket members => .group bracket (members.map (map change))

theorem pieces_map (change : α → β) (tree : Tree α) :
    (tree.map change).pieces = tree.pieces.map (Piece.map change) := by
  match tree with
  | .leaf value => simp [map, pieces, Piece.map]
  | .group bracket members =>
    have inside : ∀ trees : List (Tree α), (∀ t ∈ trees, t ∈ members) →
        (trees.map (map change)).flatMap pieces =
          (trees.flatMap pieces).map (Piece.map change) := by
      intro trees
      induction trees with
      | nil => simp
      | cons head tail inductionHypothesis =>
          intro included
          have : head ∈ members := included head List.mem_cons_self
          rw [List.map_cons, List.flatMap_cons, List.flatMap_cons, List.map_append,
            pieces_map change head,
            inductionHypothesis fun t member => included t (List.mem_cons_of_mem head member)]
    rw [map, pieces, inside members fun _ member => member]
    simp [pieces, Piece.map]
termination_by sizeOf tree

end Tree

namespace GraphQL

def colonLexeme : Lexeme :=
  ⟨.mark .colon, [':']⟩

namespace Literal

/-- What can be written: finite numbers, and names where names stand. The words for null and for the
truth values name no enum value. -/
inductive WellFormed : Literal → Prop
  | null : WellFormed .null
  | bool (value : Bool) : WellFormed (.bool value)
  | int (value : Int) : WellFormed (.int value)
  | float (value : Double) (finite : value.isFinite = true) : WellFormed (.float value)
  | str (value : String) : WellFormed (.str value)
  | enum (name : String) (valid : isName name = true) (noKeyword : ofName name = .enum name) :
      WellFormed (.enum name)
  | list (items : List Literal) (all : ∀ item ∈ items, WellFormed item) : WellFormed (.list items)
  | object (fields : List (String × Literal)) (names : ∀ field ∈ fields, isName field.1 = true)
      (all : ∀ field ∈ fields, WellFormed field.2) : WellFormed (.object fields)

mutual

/-- The tree that a literal is written as. -/
def tree : Literal → Tree Lexeme
  | .null => .leaf (Token.nameLexeme "null")
  | .bool true => .leaf (Token.nameLexeme "true")
  | .bool false => .leaf (Token.nameLexeme "false")
  | .int value => .leaf ⟨.int value, Integer.write value⟩
  | .float value => .leaf ⟨.float value.readAs, value.text⟩
  | .str value => .leaf ⟨.str value, Text.StringLiteral.write value.toList⟩
  | .enum name => .leaf (Token.nameLexeme name)
  | .list items => .group .square (itemTrees items)
  | .object fields => .group .curly (fieldTrees fields)

def itemTrees : List Literal → List (Tree Lexeme)
  | [] => []
  | item :: rest => item.tree :: itemTrees rest

/-- The trees of fields or arguments, three for each. -/
def fieldTrees : List (String × Literal) → List (Tree Lexeme)
  | [] => []
  | (name, value) :: rest =>
    .leaf (Token.nameLexeme name) :: .leaf colonLexeme :: value.tree :: fieldTrees rest

end

theorem writeItems_eq_map (items : List Literal) : writeItems items = items.map write := by
  induction items with
  | nil => rfl
  | cons item rest inductionHypothesis => rw [writeItems, inductionHypothesis, List.map_cons]

theorem itemTrees_eq_map (items : List Literal) : itemTrees items = items.map tree := by
  induction items with
  | nil => rfl
  | cons item rest inductionHypothesis => rw [itemTrees, inductionHypothesis, List.map_cons]

def writeField (field : String × Literal) : List Char :=
  field.1.toList ++ ':' :: ' ' :: field.2.write

theorem writeFields_eq_map (fields : List (String × Literal)) :
    writeFields fields = fields.map writeField := by
  induction fields with
  | nil => rfl
  | cons field rest inductionHypothesis =>
      rw [writeFields, inductionHypothesis, List.map_cons]
      rfl

def fieldPieces (field : String × Literal) : List (Piece Lexeme) :=
  [.token (Token.nameLexeme field.1), .token colonLexeme] ++ field.2.tree.pieces

theorem pieces_fieldTrees (fields : List (String × Literal)) :
    (fieldTrees fields).flatMap Tree.pieces = fields.flatMap fieldPieces := by
  induction fields with
  | nil => rfl
  | cons field rest inductionHypothesis =>
      simp only [fieldTrees, List.flatMap_cons, inductionHypothesis, Tree.pieces, fieldPieces]
      simp

theorem pieces_itemTrees (items : List Literal) :
    (itemTrees items).flatMap Tree.pieces = items.flatMap fun item => item.tree.pieces := by
  rw [itemTrees_eq_map, List.flatMap_map]

open Token (Lexes LexesFreely)

theorem separator_skipped : ∀ c ∈ separator, Token.isSkipped c = true :=
  List.all_eq_true.mp (by decide)

theorem lexesFreely_colon : LexesFreely [':', ' '] [.token colonLexeme] :=
  (Token.lexesFreely_of_readPiece (.token (.mark .colon)) (List.cons_ne_nil ':' [])
    fun _ => rfl).comp (Token.lexesFreely_skipped (c := ' ') (by decide))

/-- A field lexes when its name is a name and its value lexes. -/
theorem lexes_writeField {field : String × Literal} (valid : isName field.1 = true)
    (value : Lexes field.2.write field.2.tree.pieces) :
    Lexes (writeField field) (fieldPieces field) := by
  refine (Token.lexes_name valid).append (lexesFreely_colon.append value) fun rest _ => ?_
  exact .of_cons _ (by decide)

theorem lexes_write {literal : Literal} (wellFormed : literal.WellFormed) :
    Lexes literal.write literal.tree.pieces := by
  induction wellFormed with
  | null =>
      rw [write, tree, Tree.pieces]
      exact Token.lexes_name (by decide)
  | bool value =>
      cases value with
      | true =>
          rw [write, tree, Tree.pieces]
          exact Token.lexes_name (by decide)
      | false =>
          rw [write, tree, Tree.pieces]
          exact Token.lexes_name (by decide)
  | int value =>
      rw [write, tree, Tree.pieces]
      exact Token.lexes_integer value
  | float value finite =>
      rw [write, tree, Tree.pieces]
      exact Token.lexes_double finite
  | str value =>
      have lexes := Token.lexes_string value.toList
      rw [String.ofList_toList] at lexes
      rwa [write, tree, Tree.pieces]
  | enum name valid =>
      rw [write, tree, Tree.pieces]
      exact Token.lexes_name valid
  | list items _ inductionHypothesis =>
      rw [write, tree, Tree.pieces, writeItems_eq_map, pieces_itemTrees]
      exact (Token.lexes_intercalate (by decide) separator_skipped inductionHypothesis).surround
        .square
  | object fields names _ inductionHypothesis =>
      rw [write, tree, Tree.pieces, writeFields_eq_map, pieces_fieldTrees]
      refine (Token.lexes_intercalate (by decide) separator_skipped fun field member => ?_).surround
        .curly
      exact lexes_writeField (names field member) (inductionHypothesis field member)

/-! Reading. -/

theorem map_leaf (lexeme : Lexeme) :
    (Tree.leaf lexeme).map Lexeme.token = .leaf lexeme.token := by
  rw [Tree.map]

theorem items?_itemTrees {items : List Literal}
    (each : ∀ item ∈ items, ofTree? (item.tree.map Lexeme.token) = some item) :
    items? ((itemTrees items).map (Tree.map Lexeme.token)) = some items := by
  induction items with
  | nil => rfl
  | cons item rest inductionHypothesis =>
      have others := inductionHypothesis fun other member =>
        each other (List.mem_cons_of_mem item member)
      rw [itemTrees, List.map_cons, items?, each item List.mem_cons_self, others]
      rfl

theorem fields?_fieldTrees {fields : List (String × Literal)}
    (each : ∀ field ∈ fields, ofTree? (field.2.tree.map Lexeme.token) = some field.2) :
    fields? ((fieldTrees fields).map (Tree.map Lexeme.token)) = some fields := by
  induction fields with
  | nil => rfl
  | cons field rest inductionHypothesis =>
      obtain ⟨name, value⟩ := field
      have others := inductionHypothesis fun other member =>
        each other (List.mem_cons_of_mem _ member)
      have first := each (name, value) List.mem_cons_self
      simp only [fieldTrees, List.map_cons, map_leaf, Token.nameLexeme, colonLexeme]
      rw [fields?, first, others]
      rfl

/-- A literal that can be written is read back from the tokens of its tree. -/
theorem ofTree?_tree {literal : Literal} (wellFormed : literal.WellFormed) :
    ofTree? (literal.tree.map Lexeme.token) = some literal := by
  induction wellFormed with
  | null => rw [tree, map_leaf]; rfl
  | bool value =>
      cases value with
      | true => rw [tree, map_leaf]; rfl
      | false => rw [tree, map_leaf]; rfl
  | int value => rw [tree, map_leaf, ofTree?]
  | float value finite => rw [tree, map_leaf, ofTree?, Double.ofDecimal_readAs finite]
  | str value => rw [tree, map_leaf, ofTree?]
  | enum name _ noKeyword => rw [tree, map_leaf, Token.nameLexeme, ofTree?, noKeyword]
  | list items _ inductionHypothesis =>
      rw [tree, Tree.map, ofTree?, items?_itemTrees inductionHypothesis]
      rfl
  | object fields _ _ inductionHypothesis =>
      rw [tree, Tree.map, ofTree?, fields?_fieldTrees inductionHypothesis]
      rfl

end Literal

/-- The trees of arguments: one group, or none at all. -/
def argumentTrees (arguments : List (String × Literal)) : List (Tree Lexeme) :=
  if arguments.isEmpty then [] else [.group .round (Literal.fieldTrees arguments)]

theorem lexes_writeArguments {arguments : List (String × Literal)}
    (names : ∀ argument ∈ arguments, isName argument.1 = true)
    (values : ∀ argument ∈ arguments, argument.2.WellFormed) :
    Token.Lexes (writeArguments arguments) ((argumentTrees arguments).flatMap Tree.pieces) := by
  cases arguments with
  | nil => exact Token.lexesFreely_nil.lexes
  | cons argument rest =>
      simp only [writeArguments, argumentTrees, List.isEmpty_cons, Bool.false_eq_true, if_false,
        List.flatMap_cons, List.flatMap_nil, List.append_nil, Tree.pieces]
      rw [Literal.writeFields_eq_map, Literal.pieces_fieldTrees]
      refine (Token.lexes_intercalate (by decide) Literal.separator_skipped
        fun field member => ?_).surround .round
      exact Literal.lexes_writeField (names field member)
        (Literal.lexes_write (values field member))

end GraphQL

end Toolsmith

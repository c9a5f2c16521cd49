import Toolsmith.GraphQL.TypeRef
import Toolsmith.Proofs.GraphQL.Literal

/-!
References to types, written and read back. A reference is one tree, with its exclamation mark
behind it, so it is read as far as it goes when no further mark follows.
-/

set_option autoImplicit false

namespace Toolsmith.GraphQL.TypeRef

open Token (Lexes LexesFreely)

def bangLexeme : Lexeme :=
  ⟨.mark .bang, ['!']⟩

/-- The exclamation mark of what is required. -/
def writeBang (required : Bool) : List Char :=
  if required then ['!'] else []

def bangTrees (required : Bool) : List (Tree Lexeme) :=
  if required then [.leaf bangLexeme] else []

def write : TypeRef → List Char
  | .named name required => name.toList ++ writeBang required
  | .list items required => '[' :: items.write ++ [']'] ++ writeBang required

/-- The tree of a reference without its own exclamation mark. -/
def tree : TypeRef → Tree Lexeme
  | .named name _ => .leaf (Token.nameLexeme name)
  | .list items _ => .group .square (items.tree :: bangTrees items.isRequired)

def trees (type : TypeRef) : List (Tree Lexeme) :=
  type.tree :: bangTrees type.isRequired

/-- How many lists lie inside each other. -/
def nesting : TypeRef → Nat
  | .named _ _ => 0
  | .list items _ => items.nesting + 1

theorem lexesFreely_bang (required : Bool) :
    LexesFreely (writeBang required) ((bangTrees required).flatMap Tree.pieces) := by
  cases required with
  | false => exact Token.lexesFreely_nil
  | true =>
      have lexes : LexesFreely ['!'] [.token bangLexeme] :=
        Token.lexesFreely_of_readPiece (.token (.mark .bang)) (List.cons_ne_nil '!' []) fun _ => rfl
      simpa [writeBang, bangTrees, Tree.pieces] using lexes

theorem endsToken_bang (required : Bool) {rest : List Char} (ends : Token.EndsToken rest) :
    Token.EndsToken (writeBang required ++ rest) := by
  cases required with
  | false => exact ends
  | true => exact .of_cons rest (by decide)

theorem lexes_write {type : TypeRef} (valid : isName type.typeName = true) :
    Lexes type.write (type.trees.flatMap Tree.pieces) := by
  induction type with
  | named name required =>
      have whole := (Token.lexes_name valid).append (lexesFreely_bang required).lexes
        fun _ ends => endsToken_bang required ends
      rw [trees, List.flatMap_cons, tree, Tree.pieces]
      exact whole
  | list items required inductionHypothesis =>
      have whole := ((inductionHypothesis valid).surround .square).append
        (lexesFreely_bang required).lexes fun _ ends => endsToken_bang required ends
      rw [trees, List.flatMap_cons, tree, Tree.pieces]
      exact whole

/-! Reading. -/

theorem map_bangTrees (required : Bool) :
    (bangTrees required).map (Tree.map Lexeme.token) = if required then [.mark .bang] else [] := by
  cases required with
  | false => rfl
  | true => simp [bangTrees, bangLexeme, Tree.map]

theorem ofTree?_tree (type : TypeRef) :
    ofTree? type.isRequired (type.tree.map Lexeme.token) = some type := by
  induction type with
  | named name required => rw [tree, Tree.map, Token.nameLexeme, ofTree?, isRequired]
  | list items required inductionHypothesis =>
      rw [tree, Tree.map, List.map_cons, map_bangTrees, isRequired]
      cases needed : items.isRequired with
      | false =>
          rw [needed] at inductionHypothesis
          rw [if_neg Bool.false_ne_true, ofTree?, inductionHypothesis]
          rfl
      | true =>
          rw [needed] at inductionHypothesis
          rw [if_pos rfl, ofTree?, inductionHypothesis]
          rfl

theorem depth_tree (type : TypeRef) : (type.tree.map Lexeme.token).depth = type.nesting := by
  induction type with
  | named name required => rw [tree, Tree.map, Tree.depth, nesting]
  | list items required inductionHypothesis =>
      rw [tree, Tree.map, Tree.depth, List.map_cons, map_bangTrees, Tree.depthOfAll,
        inductionHypothesis, nesting]
      split
      · simp [Tree.depthOfAll, Tree.depth]
      · simp [Tree.depthOfAll]

theorem ofShallowTree?_tree (type : TypeRef) :
    ofShallowTree? type.isRequired (type.tree.map Lexeme.token) =
      if type.nesting ≤ Token.maxDepth then some type else none := by
  rw [ofShallowTree?, depth_tree, ofTree?_tree]

/-- A reference is read back unless it is nested too deep. -/
theorem read_trees (type : TypeRef) {rest : List (Tree Token)}
    (noBang : ∀ after, rest ≠ .mark .bang :: after) :
    read (type.trees.map (Tree.map Lexeme.token) ++ rest) =
      if type.nesting ≤ Token.maxDepth then some (type, rest) else none := by
  have readTree := ofShallowTree?_tree type
  rw [trees, List.map_cons, map_bangTrees, List.cons_append]
  cases needed : type.isRequired with
  | true =>
      rw [needed] at readTree
      rw [if_pos rfl, List.singleton_append, read, readTree]
      split <;> rfl
  | false =>
      rw [needed] at readTree
      rw [if_neg Bool.false_ne_true, List.nil_append]
      unfold read
      split
      · rename_i same
        exact absurd (List.cons.inj same).2 (noBang _)
      · rename_i same
        obtain ⟨rfl, rfl⟩ := List.cons.inj same
        rw [readTree]
        split <;> rfl
      · contradiction

end Toolsmith.GraphQL.TypeRef

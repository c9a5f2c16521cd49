/-!
Bracketed text. A sequence of tokens with opening and closing brackets is read as a list of trees,
in which every group stands where its brackets stood. Reading succeeds exactly when the brackets
match.
-/

set_option autoImplicit false

namespace Toolsmith

inductive Bracket where
  | round
  | square
  | curly
deriving DecidableEq, Repr

/-- One piece of bracketed text, over the tokens `α` that are no brackets. -/
inductive Piece (α : Type) where
  | token (token : α)
  | opening (bracket : Bracket)
  | closing (bracket : Bracket)
deriving DecidableEq, Repr

inductive Tree (α : Type) where
  | leaf (token : α)
  | group (bracket : Bracket) (members : List (Tree α))
deriving Repr

namespace Tree

variable {α : Type}

mutual

/-- How many groups lie inside each other. -/
def depth : Tree α → Nat
  | .leaf _ => 0
  | .group _ members => depthOfAll members + 1

def depthOfAll : List (Tree α) → Nat
  | [] => 0
  | tree :: rest => max tree.depth (depthOfAll rest)

end

/-- The pieces a tree is written with. -/
def pieces : Tree α → List (Piece α)
  | .leaf token => [.token token]
  | .group bracket members => .opening bracket :: members.flatMap pieces ++ [.closing bracket]

/-- Reads the pieces that follow: `done` holds the trees of the innermost open group, the latest
first, and `outer` the open groups around it with what each holds so far. -/
def readInside
    (outer : List (Bracket × List (Tree α)))
    (done : List (Tree α)) :
    List (Piece α) → Option (List (Tree α))
  | [] => if outer.isEmpty then some done.reverse else none
  | .token token :: rest => readInside outer (.leaf token :: done) rest
  | .opening bracket :: rest => readInside ((bracket, done) :: outer) [] rest
  | .closing bracket :: rest =>
    match outer with
    | [] => none
    | (opened, before) :: further =>
      if opened = bracket then readInside further (.group bracket done.reverse :: before) rest
      else none

def ofPieces? (text : List (Piece α)) : Option (List (Tree α)) :=
  readInside [] [] text

/-- A tree that was written is read as that tree, whatever stands around it. -/
theorem readInside_pieces
    (tree : Tree α)
    (outer : List (Bracket × List (Tree α)))
    (done : List (Tree α))
    (rest : List (Piece α)) :
    readInside outer done (tree.pieces ++ rest) = readInside outer (tree :: done) rest := by
  match tree with
  | .leaf token => simp [pieces, readInside]
  | .group bracket members =>
    have inside : ∀ (trees : List (Tree α)), (∀ t ∈ trees, t ∈ members) → ∀ outer done rest,
        readInside outer done (trees.flatMap pieces ++ rest) =
          readInside outer (trees.reverse ++ done) rest := by
      intro trees
      induction trees with
      | nil => simp
      | cons head tail inductionHypothesis =>
        intro included outer done rest
        have : head ∈ members := included head (by simp)
        rw [List.flatMap_cons, List.append_assoc, readInside_pieces head,
          inductionHypothesis (fun t ht => included t (by simp [ht]))]
        simp
    simp only [pieces, List.cons_append, List.append_assoc, readInside]
    rw [inside members (fun _ h => h)]
    simp [readInside]
termination_by sizeOf tree

/-- Reading undoes writing. -/
theorem ofPieces?_flatMap_pieces (trees : List (Tree α)) :
    ofPieces? (trees.flatMap pieces) = some trees := by
  have inside : ∀ (trees done : List (Tree α)),
      readInside [] done (trees.flatMap pieces) = some (done.reverse ++ trees) := by
    intro trees
    induction trees with
    | nil => simp [readInside]
    | cons head tail inductionHypothesis =>
      intro done
      rw [List.flatMap_cons, readInside_pieces, inductionHypothesis]
      simp
  simpa [ofPieces?] using inside trees []

end Tree

end Toolsmith

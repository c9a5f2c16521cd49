import Toolsmith.Bracketed

/-!
Brackets that match leave nothing out: the trees that are read hold all the pieces, in their order.
-/

set_option autoImplicit false

namespace Toolsmith

namespace Tree

variable {α : Type}

/-- The pieces of what is read already: the open groups from the outermost inwards, each with what
it holds. -/
def openPieces : List (Bracket × List (Tree α)) → List (Piece α)
  | [] => []
  | (bracket, before) :: outer =>
    openPieces outer ++ (before.reverse.flatMap pieces ++ [.opening bracket])

theorem flatMap_pieces_of_readInside {outer : List (Bracket × List (Tree α))}
    {done trees : List (Tree α)} {text : List (Piece α)}
    (read : readInside outer done text = some trees) :
    trees.flatMap pieces = openPieces outer ++ (done.reverse.flatMap pieces ++ text) := by
  fun_induction readInside outer done text with
  | case1 outer done closed =>
      have noOuter : outer = [] := List.isEmpty_iff.mp closed
      obtain rfl := Option.some.inj read
      simp [noOuter, openPieces]
  | case2 => contradiction
  | case3 outer done token rest inductionHypothesis =>
      rw [inductionHypothesis read]
      simp [pieces]
  | case4 outer done bracket rest inductionHypothesis =>
      rw [inductionHypothesis read]
      simp [openPieces]
  | case5 => contradiction
  | case6 done rest opened before further inductionHypothesis =>
      rw [inductionHypothesis read]
      simp [openPieces, pieces]
  | case7 => contradiction

/-- Reading trees changes no piece. -/
theorem flatMap_pieces_of_ofPieces? {trees : List (Tree α)} {text : List (Piece α)}
    (read : ofPieces? text = some trees) : trees.flatMap pieces = text := by
  simpa [openPieces] using flatMap_pieces_of_readInside read

end Tree

end Toolsmith

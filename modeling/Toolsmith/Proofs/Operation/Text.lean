import Toolsmith.Operation
import Toolsmith.Proofs.Value.Denotation

/-!
The text of an operation read by the grammar of operations: one operation without a name, with one
plain field, its arguments and its selection. The only thing asked is that names are names.
-/

set_option autoImplicit false

namespace Toolsmith

open GraphQL (Lexeme isName colonLexeme argumentTrees)
open GraphQL.Token (Lexes LexesFreely nameLexeme lexes_name)

/-! Selections. -/

namespace Selection

/-- The fields have names, and braces have something between them. -/
inductive WellFormed : Selection → Prop
  | leaf {field : String} (valid : isName field = true) : WellFormed (.leaf field)
  | nested {field : String} {members : List Selection} (valid : isName field = true)
      (nonempty : members ≠ []) (all : ∀ member ∈ members, WellFormed member) :
      WellFormed (.nested field members)

mutual

/-- The trees that a selection is written as. -/
def trees : Selection → List (Tree Lexeme)
  | .leaf field => [.leaf (nameLexeme field)]
  | .nested field members => [.leaf (nameLexeme field), .group .curly (allTrees members)]

def allTrees : List Selection → List (Tree Lexeme)
  | [] => []
  | member :: rest => member.trees ++ allTrees rest

end

mutual

/-- A selection in the executable grammar: a field without alias, arguments and directives. -/
def plain : Selection → GraphQL.Executable.Selection
  | .leaf field => .field none field [] [] []
  | .nested field members => .field none field [] [] (allPlain members)

def allPlain : List Selection → List GraphQL.Executable.Selection
  | [] => []
  | member :: rest => member.plain :: allPlain rest

end

theorem writeEach_eq_map (members : List Selection) : writeEach members = members.map write := by
  induction members with
  | nil => rfl
  | cons member rest inductionHypothesis => rw [writeEach, inductionHypothesis, List.map_cons]

theorem pieces_allTrees (members : List Selection) :
    (allTrees members).flatMap Tree.pieces =
      members.flatMap fun member => member.trees.flatMap Tree.pieces := by
  induction members with
  | nil => rfl
  | cons member rest inductionHypothesis =>
      rw [allTrees, List.flatMap_append, inductionHypothesis, List.flatMap_cons]

theorem lexes_surround {members : List Selection}
    (each : ∀ member ∈ members, Lexes member.write (member.trees.flatMap Tree.pieces)) :
    Lexes (surround (writeEach members)) (Tree.group .curly (allTrees members)).pieces := by
  have inside := GraphQL.Token.lexes_intercalate (List.cons_ne_nil ' ' [])
    GraphQL.Token.space_skipped each
  rw [Tree.pieces, pieces_allTrees, surround, writeEach_eq_map]
  simpa [Bracket.openingChar, Bracket.closingChar] using inside.padded.surround .curly

theorem lexes_write {selection : Selection} (wellFormed : selection.WellFormed) :
    Lexes selection.write (selection.trees.flatMap Tree.pieces) := by
  induction wellFormed with
  | leaf valid =>
      rw [write, trees]
      simpa [Tree.pieces] using lexes_name valid
  | @nested field members valid _ _ inductionHypothesis =>
      have braces := GraphQL.Token.lexesFreely_space.append (lexes_surround inductionHypothesis)
      have whole := (lexes_name valid).append braces fun rest _ =>
        GraphQL.Token.endsToken_skipped (c := ' ') (by decide) _
      rw [write, trees]
      simpa [Tree.pieces] using whole

/-- What may follow a field without arguments and directives: another field, or braces. -/
def FollowsField (trees : List (Tree Lexeme)) : Prop :=
  ∀ tree ∈ trees.head?,
    (∃ name, tree = .leaf (nameLexeme name)) ∨ ∃ members, tree = .group .curly members

theorem followsField_allTrees (members : List Selection) : FollowsField (allTrees members) := by
  cases members with
  | nil => exact nofun
  | cons member rest =>
      intro tree first
      left
      cases member with
      | leaf field =>
          rw [allTrees, trees] at first
          exact ⟨field, (Option.some.inj first).symm⟩
      | nested field members =>
          rw [allTrees, trees] at first
          exact ⟨field, (Option.some.inj first).symm⟩

end Selection

namespace GraphQL.Executable

open Toolsmith.Selection (FollowsField)

theorem arguments?_of_follows {trees : List (Tree Lexeme)} (follows : FollowsField trees) :
    arguments? trees = some ([], trees) := by
  unfold arguments?
  split
  · rcases follows _ rfl with ⟨_, same⟩ | ⟨_, same⟩
    · contradiction
    · simp at same
  · rcases follows _ rfl with ⟨_, same⟩ | ⟨_, same⟩
    · contradiction
    · simp at same
  · rfl

/-- Arguments read back, if there are any. -/
theorem arguments?_argumentTrees {arguments : List (String × Literal)}
    (values : ∀ argument ∈ arguments, argument.2.WellFormed) {rest : List (Tree Lexeme)}
    (follows : FollowsField rest) :
    arguments? (argumentTrees arguments ++ rest) =
      some (Literal.fieldsWritten arguments, rest) := by
  cases arguments with
  | nil => exact arguments?_of_follows follows
  | cons argument others =>
      have fields := Literal.fields?_trees fun argument member =>
        Literal.value?_tree (values argument member)
      simp only [argumentTrees, List.isEmpty_cons, Bool.false_eq_true, if_false,
        List.singleton_append]
      rw [arguments?, fields]
      · rfl
      · simp [Literal.fieldTrees]

theorem directives?_of_follows {trees : List (Tree Lexeme)} (follows : FollowsField trees) :
    directives? trees = some ([], trees) := by
  rw [directives?.eq_def]
  split
  case h_5 => rfl
  all_goals
    rcases follows _ rfl with ⟨_, same⟩ | ⟨_, same⟩
    · simp [nameLexeme] at same
    · contradiction

theorem head?_name (name : String) {rest : List (Tree Lexeme)}
    (noColon : ∀ text after, rest ≠ .leaf ⟨.mark .colon, text⟩ :: after) :
    head? (.leaf (nameLexeme name) :: rest) = fieldHead? none name rest := by
  rw [nameLexeme]
  unfold head?
  split
  case h_5 =>
    rename_i same
    exact absurd (List.cons.inj same).2 (noColon _ _)
  case h_6 =>
    rename_i same
    simp only [List.cons.injEq, Tree.leaf.injEq, Lexeme.mk.injEq, Token.name.injEq] at same
    obtain ⟨⟨rfl, _⟩, rfl⟩ := same
    rfl
  all_goals simp_all

/-- A field that is nothing but its name. -/
theorem head?_plain (name : String) {rest : List (Tree Lexeme)} (follows : FollowsField rest) :
    head? (.leaf (nameLexeme name) :: rest) = some (.field none name [] [], rest) := by
  have noColon : ∀ text after, rest ≠ .leaf ⟨.mark .colon, text⟩ :: after := by
    rintro text after rfl
    rcases follows _ rfl with ⟨_, same⟩ | ⟨_, same⟩
    · simp [nameLexeme] at same
    · contradiction
  rw [head?_name name noColon, fieldHead?, arguments?_of_follows follows]
  simp [directives?_of_follows follows]

theorem selections?_leaf (name : String) {rest : List (Tree Lexeme)}
    (follows : FollowsField rest)
    (noBraces : ∀ members after, rest ≠ .group .curly members :: after) :
    selections? (.leaf (nameLexeme name) :: rest) =
      (selections? rest).map (.field none name [] [] [] :: ·) := by
  rw [selections?_of_noBraces (head?_plain name follows) noBraces]
  cases selections? rest <;> rfl

theorem selections?_nested (name : String) {members rest : List (Tree Lexeme)}
    (nonempty : members ≠ []) {inside : List Selection} (read : selections? members = some inside) :
    selections? (.leaf (nameLexeme name) :: .group .curly members :: rest) =
      (selections? rest).map (.field none name [] [] inside :: ·) := by
  have follows : FollowsField (.group .curly members :: rest) := by
    intro tree first
    exact .inr ⟨members, (Option.some.inj first).symm⟩
  rw [selections?_of_braces (head?_plain name follows) nonempty, read]
  cases selections? rest <;> rfl

end GraphQL.Executable

namespace Selection

open GraphQL.Executable (selections? selections?_leaf selections?_nested)

theorem allTrees_ne_nil {members : List Selection} (nonempty : members ≠ []) :
    allTrees members ≠ [] := by
  obtain ⟨first, others, rfl⟩ := List.exists_cons_of_ne_nil nonempty
  cases first with
  | leaf => simp [allTrees, trees]
  | nested => simp [allTrees, trees]

theorem allTrees_noBraces (selections : List Selection) :
    ∀ members after, allTrees selections ≠ .group .curly members :: after := by
  intro members after same
  cases selections with
  | nil => simp [allTrees] at same
  | cons selection rest =>
      cases selection with
      | leaf field => simp [allTrees, trees] at same
      | nested field inner => simp [allTrees, trees] at same

mutual

theorem selections?_trees {selection : Selection} (wellFormed : selection.WellFormed)
    {rest : List Selection} {others : List GraphQL.Executable.Selection}
    (read : selections? (allTrees rest) = some others) :
    selections? (selection.trees ++ allTrees rest) = some (selection.plain :: others) := by
  match selection, wellFormed with
  | .leaf field, _ =>
    rw [trees, List.singleton_append,
      selections?_leaf field (followsField_allTrees rest) (allTrees_noBraces rest), read]
    rfl
  | .nested field members, .nested _ nonempty all =>
    rw [trees, List.cons_append, List.singleton_append,
      selections?_nested field (allTrees_ne_nil nonempty) (selections?_allTrees all), read]
    rfl

/-- Selections read back, each as a plain field. -/
theorem selections?_allTrees {members : List Selection}
    (wellFormed : ∀ member ∈ members, member.WellFormed) :
    selections? (allTrees members) = some (allPlain members) := by
  match members with
  | [] => simp [allTrees, selections?, allPlain]
  | member :: rest =>
    obtain ⟨first, others⟩ := List.forall_mem_cons.mp wellFormed
    rw [allTrees, selections?_trees first (selections?_allTrees others), allPlain]

end

/-- The group that selections are written as; none without selections. -/
def setTrees (members : List Selection) : List (Tree Lexeme) :=
  if members.isEmpty then [] else [.group .curly (allTrees members)]

theorem followsField_setTrees (members : List Selection) : FollowsField (setTrees members) := by
  unfold setTrees
  split
  · exact nofun
  · intro tree first
    exact .inr ⟨allTrees members, (Option.some.inj first).symm⟩

/-- Selections between braces are read as a whole text, too. -/
theorem readSelectionSet?_writeSet {members : List Selection} (nonempty : members ≠ [])
    (wellFormed : ∀ member ∈ members, member.WellFormed) :
    GraphQL.Executable.readSelectionSet? (String.ofList (writeSet members)) =
      some (allPlain members) := by
  have lexes := lexes_surround fun member included => lexes_write (wellFormed member included)
  have written : writeSet members = surround (writeEach members) := by
    rw [writeSet, if_neg (by simpa using nonempty)]
  have trees : GraphQL.Executable.trees? (String.ofList (writeSet members)) =
      some [.group .curly (allTrees members)] := by
    rw [GraphQL.Executable.trees?, String.toList_ofList, written, lexes.lexemes?]
    simpa using Tree.ofPieces?_flatMap_pieces [Tree.group .curly (allTrees members)]
  obtain ⟨first, others, same⟩ := List.exists_cons_of_ne_nil (allTrees_ne_nil nonempty)
  rw [GraphQL.Executable.readSelectionSet?, trees, Option.bind_some, same,
    GraphQL.Executable.selectionSet?, ← same, selections?_allTrees wellFormed]
  · rfl
  · simp

end Selection

/-! Operations. -/

namespace Operation

/-- The names in an operation are names, and its values can be written. -/
structure WellFormed (operation : Operation) : Prop where
  field : isName operation.field = true
  names : ∀ argument ∈ operation.arguments, isName argument.1 = true
  values : ∀ argument ∈ operation.arguments, argument.2.WellFormed
  selection : ∀ member ∈ operation.selection, member.WellFormed

/-- The trees of the root field. -/
def fieldTrees (operation : Operation) : List (Tree Lexeme) :=
  .leaf (nameLexeme operation.field) ::
    (argumentTrees operation.arguments ++ Selection.setTrees operation.selection)

def trees (operation : Operation) : List (Tree Lexeme) :=
  [.leaf (nameLexeme operation.kind.keyword), .group .curly operation.fieldTrees]

theorem endsToken_writeArguments (arguments : List (String × GraphQL.Literal)) {rest : List Char}
    (ends : GraphQL.Token.EndsToken rest) :
    GraphQL.Token.EndsToken (GraphQL.writeArguments arguments ++ rest) := by
  unfold GraphQL.writeArguments
  split
  · exact ends
  · exact .of_cons _ (by decide)

theorem lexes_writeField {operation : Operation} (wellFormed : operation.WellFormed) :
    Lexes operation.writeField (operation.fieldTrees.flatMap Tree.pieces) := by
  have call := (lexes_name wellFormed.field).append
    (GraphQL.lexes_writeArguments wellFormed.names wellFormed.values)
    fun rest ends => endsToken_writeArguments operation.arguments ends
  unfold writeField fieldTrees Selection.setTrees
  dsimp only
  split
  · simpa [Tree.pieces] using call
  · rename_i nonempty
    have braces := GraphQL.Token.lexesFreely_space.append
      (Selection.lexes_surround fun member included =>
        Selection.lexes_write (wellFormed.selection member included))
    have whole := call.append braces fun rest _ =>
      GraphQL.Token.endsToken_skipped (c := ' ') (by decide) _
    simpa [Selection.writeSet, nonempty, Tree.pieces] using whole

theorem lexes_text {operation : Operation} (wellFormed : operation.WellFormed) :
    Lexes operation.text.toList (operation.trees.flatMap Tree.pieces) := by
  have keyword : isName operation.kind.keyword = true := by
    cases operation.kind <;> decide
  have braces := GraphQL.Token.lexesFreely_space.append
    ((lexes_writeField wellFormed).padded.surround .curly)
  have whole := (lexes_name keyword).append braces fun rest _ =>
    GraphQL.Token.endsToken_skipped (c := ' ') (by decide) _
  simpa [text, trees, Tree.pieces, Bracket.openingChar, Bracket.closingChar] using whole

open GraphQL.Executable

/-- The root field reads back with its arguments and its selection. -/
theorem selections?_fieldTrees {operation : Operation} (wellFormed : operation.WellFormed) :
    selections? operation.fieldTrees =
      some [.field none operation.field (GraphQL.Literal.fieldsWritten operation.arguments) []
        (Selection.allPlain operation.selection)] := by
  have noColon : ∀ text after,
      argumentTrees operation.arguments ++ Selection.setTrees operation.selection ≠
        .leaf ⟨.mark .colon, text⟩ :: after := by
    intro text after
    unfold argumentTrees Selection.setTrees
    split <;> split <;> simp
  have head : head? operation.fieldTrees =
      some (.field none operation.field (GraphQL.Literal.fieldsWritten operation.arguments) [],
        Selection.setTrees operation.selection) := by
    rw [fieldTrees, head?_name operation.field noColon, fieldHead?,
      arguments?_argumentTrees wellFormed.values
        (Selection.followsField_setTrees operation.selection)]
    simp [directives?_of_follows (Selection.followsField_setTrees operation.selection)]
  by_cases empty : operation.selection = []
  · rw [empty] at head ⊢
    have noBraces : ∀ members after,
        Selection.setTrees [] ≠ (.group .curly members :: after : List (Tree Lexeme)) := by
      simp [Selection.setTrees]
    rw [fieldTrees] at head ⊢
    rw [selections?_of_noBraces head noBraces]
    simp [Selection.setTrees, selections?, Head.selection?, Selection.allPlain]
  · have braces : Selection.setTrees operation.selection =
        [.group .curly (Selection.allTrees operation.selection)] := by
      simp [Selection.setTrees, empty]
    rw [braces] at head
    rw [fieldTrees] at head ⊢
    rw [selections?_of_braces head (Selection.allTrees_ne_nil empty),
      Selection.selections?_allTrees wellFormed.selection]
    simp [selections?, Head.selection?]

theorem definition?_trees {operation : Operation} (wellFormed : operation.WellFormed) :
    definition? operation.trees =
      some (.operation operation.kind.keyword none [] []
        [.field none operation.field (GraphQL.Literal.fieldsWritten operation.arguments) []
          (Selection.allPlain operation.selection)], []) := by
  have set : selectionSet? [.group .curly operation.fieldTrees] =
      (selections? operation.fieldTrees).map (·, []) := by
    rw [fieldTrees, selectionSet?]
    simp
  have keyword : operation.kind.keyword ∈ ["query", "mutation", "subscription"] ∧
      operation.kind.keyword ≠ "fragment" := by
    cases operation.kind <;> decide
  rw [trees, nameLexeme, definition?.eq_def]
  split
  · rename_i same
    simp only [List.cons.injEq, Tree.leaf.injEq, Lexeme.mk.injEq,
      GraphQL.Token.name.injEq] at same
    exact absurd same.1.1 keyword.2
  · rename_i same
    simp only [List.cons.injEq, Tree.leaf.injEq, Lexeme.mk.injEq,
      GraphQL.Token.name.injEq] at same
    obtain ⟨⟨rfl, _⟩, rfl⟩ := same
    simp [keyword.1, operationName, variableDefinitions?, directives?, set,
      selections?_fieldTrees wellFormed]
  · rename_i other
    exact (other _ _ _ rfl).elim

/-- The text of an operation reads back as that one operation. -/
theorem read?_text {operation : Operation} (wellFormed : operation.WellFormed) :
    read? operation.text =
      some [.operation operation.kind.keyword none [] []
        [.field none operation.field (GraphQL.Literal.fieldsWritten operation.arguments) []
          (Selection.allPlain operation.selection)]] := by
  have whole : trees? operation.text = some operation.trees := by
    rw [trees?, (lexes_text wellFormed).lexemes?]
    exact Tree.ofPieces?_flatMap_pieces operation.trees
  have definition := definition?_trees wellFormed
  rw [read?, whole]
  rw [trees] at definition ⊢
  dsimp only
  rw [each, definition]
  simp [each]

end Operation

end Toolsmith

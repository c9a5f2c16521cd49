import Toolsmith.Proofs.GraphQL.Document.NewType
import Toolsmith.Proofs.GraphQL.Names
import Toolsmith.Proofs.GraphQL.TypeRef

/-!
An object type with one field, written in front of a document. Arguments are written with their
descriptions and defaults, both as literals. The document is read as before, with the type in front
of it.
-/

set_option autoImplicit false

namespace Toolsmith.GraphQL

open Token (Lexes LexesFreely nameLexeme lexes_name space_skipped)

/-! Writing. -/

def equalsLexeme : Lexeme :=
  ⟨.mark .equals, ['=']⟩

theorem lexesFreely_equals : LexesFreely ['=', ' '] [.token equalsLexeme] :=
  (Token.lexesFreely_of_readPiece (.token (.mark .equals)) (List.cons_ne_nil '=' [])
    fun _ => rfl).comp Token.lexesFreely_space

def writeDescription : Option String → List Char
  | none => []
  | some text => (Literal.str text).write ++ [' ']

def descriptionTrees : Option String → List (Tree Lexeme)
  | none => []
  | some text => [(Literal.str text).tree]

def writeDefault : Option Literal → List Char
  | none => []
  | some literal => ' ' :: '=' :: ' ' :: literal.write

def defaultTrees : Option Literal → List (Tree Lexeme)
  | none => []
  | some literal => [.leaf equalsLexeme, literal.tree]

theorem lexes_described (description : Option String) {text : List Char}
    {pieces : List (Piece Lexeme)} (lexes : Lexes text pieces) :
    Lexes (writeDescription description ++ text)
      ((descriptionTrees description).flatMap Tree.pieces ++ pieces) := by
  cases description with
  | none => exact lexes
  | some description =>
      have whole := (Literal.lexes_write (.str description)).append_blank (List.cons_ne_nil ' ' [])
        space_skipped lexes
      simpa [writeDescription, descriptionTrees] using whole

theorem lexes_defaulted {default : Option Literal}
    (wellFormed : ∀ literal ∈ default, literal.WellFormed) {text : List Char}
    {pieces : List (Piece Lexeme)} (lexes : Lexes text pieces) :
    Lexes (text ++ writeDefault default)
      (pieces ++ (defaultTrees default).flatMap Tree.pieces) := by
  cases default with
  | none => simpa [writeDefault, defaultTrees] using lexes
  | some literal =>
      have whole := lexes.append_blank (List.cons_ne_nil ' ' []) space_skipped
        (lexesFreely_equals.append (Literal.lexes_write (wellFormed literal rfl)))
      simpa [writeDefault, defaultTrees, Tree.pieces] using whole

namespace InputValueDefinition

/-- An argument without its directives. -/
def write (value : InputValueDefinition) : List Char :=
  writeDescription value.description ++
    (value.name.toList ++ ':' :: ' ' :: (value.type.write ++ writeDefault value.default))

def trees (value : InputValueDefinition) : List (Tree Lexeme) :=
  descriptionTrees value.description ++
    (.leaf (nameLexeme value.name) :: .leaf colonLexeme ::
      (value.type.trees ++ defaultTrees value.default))

/-- What can be written: no directives, and names where names stand. -/
structure Writable (value : InputValueDefinition) : Prop where
  bare : value.directives = []
  name : isName value.name = true
  type : isName value.type.typeName = true
  default : ∀ literal ∈ value.default, literal.WellFormed

/-- Neither the type nor the default is nested too deep to be read. -/
def IsShallow (value : InputValueDefinition) : Prop :=
  value.type.nesting ≤ Token.maxDepth ∧
    ∀ literal ∈ value.default, (literal.tree.map Lexeme.token).depth ≤ Token.maxDepth

instance (value : InputValueDefinition) : Decidable value.IsShallow :=
  inferInstanceAs (Decidable (_ ∧ _))

theorem lexes_write {value : InputValueDefinition} (writable : value.Writable) :
    Lexes value.write (value.trees.flatMap Tree.pieces) := by
  have typed := lexes_defaulted writable.default (TypeRef.lexes_write writable.type)
  have named := (lexes_name writable.name).append (Literal.lexesFreely_colon.append typed)
    fun _ _ => .of_cons _ (by decide)
  simpa [write, trees, Tree.pieces] using lexes_described value.description named

end InputValueDefinition

def writeParameters (arguments : List InputValueDefinition) : List Char :=
  if arguments.isEmpty then []
  else
    '(' :: List.intercalate Literal.separator (arguments.map InputValueDefinition.write) ++ [')']

def parameterTrees (arguments : List InputValueDefinition) : List (Tree Lexeme) :=
  if arguments.isEmpty then []
  else [.group .round (arguments.flatMap InputValueDefinition.trees)]

theorem lexes_writeParameters {arguments : List InputValueDefinition}
    (writable : ∀ argument ∈ arguments, argument.Writable) :
    Lexes (writeParameters arguments) ((parameterTrees arguments).flatMap Tree.pieces) := by
  unfold writeParameters parameterTrees
  split
  · exact Token.lexesFreely_nil.lexes
  · have each := (Token.lexes_intercalate (by decide) Literal.separator_skipped
      fun argument member => InputValueDefinition.lexes_write (writable argument member)).surround
        .round
    simpa [Tree.pieces, Bracket.openingChar, Bracket.closingChar, List.flatMap_assoc] using each

theorem endsToken_writeParameters (arguments : List InputValueDefinition) {rest : List Char}
    (ends : Token.EndsToken rest) : Token.EndsToken (writeParameters arguments ++ rest) := by
  unfold writeParameters
  split
  · exact ends
  · exact .of_cons _ (by decide)

namespace FieldDefinition

/-- A field without its directives. -/
def write (field : FieldDefinition) : List Char :=
  writeDescription field.description ++
    (field.name.toList ++ (writeParameters field.arguments ++ ':' :: ' ' :: field.type.write))

def trees (field : FieldDefinition) : List (Tree Lexeme) :=
  descriptionTrees field.description ++
    (.leaf (nameLexeme field.name) ::
      (parameterTrees field.arguments ++ .leaf colonLexeme :: field.type.trees))

structure Writable (field : FieldDefinition) : Prop where
  bare : field.directives = []
  name : isName field.name = true
  arguments : ∀ argument ∈ field.arguments, argument.Writable
  type : isName field.type.typeName = true

def IsShallow (field : FieldDefinition) : Prop :=
  (∀ argument ∈ field.arguments, argument.IsShallow) ∧ field.type.nesting ≤ Token.maxDepth

instance (field : FieldDefinition) : Decidable field.IsShallow :=
  inferInstanceAs (Decidable (_ ∧ _))

theorem lexes_write {field : FieldDefinition} (writable : field.Writable) :
    Lexes field.write (field.trees.flatMap Tree.pieces) := by
  have typed := Literal.lexesFreely_colon.append (TypeRef.lexes_write writable.type)
  have called := (lexes_writeParameters writable.arguments).append typed
    fun _ _ => .of_cons _ (by decide)
  have named := (lexes_name writable.name).append called fun rest _ => by
    rw [List.append_assoc]
    exact endsToken_writeParameters field.arguments (.of_cons _ (by decide))
  simpa [write, trees, Tree.pieces] using lexes_described field.description named

/-- The object type that has the field and no other. -/
def writeType (field : FieldDefinition) (owner : String) : List Char :=
  "type ".toList ++ (owner.toList ++ ' ' :: '{' :: ' ' :: field.write ++ [' ', '}'])

/-- A text with the type on a line above it. -/
def above (field : FieldDefinition) (owner rest : String) : String :=
  String.ofList (field.writeType owner ++ '\n' :: rest.toList)

def typeTrees (field : FieldDefinition) (owner : String) : List (Tree Lexeme) :=
  [.leaf (nameLexeme "type"), .leaf (nameLexeme owner), .group .curly field.trees]

theorem lexes_writeType {field : FieldDefinition} (writable : field.Writable) {owner : String}
    (valid : isName owner = true) :
    Lexes (field.writeType owner) ((field.typeTrees owner).flatMap Tree.pieces) := by
  have keyword : isName "type" = true := by decide
  have braces := (lexes_write writable).padded.surround .curly
  have named := (lexes_name valid).append_blank (List.cons_ne_nil ' ' []) space_skipped braces
  have whole := (lexes_name keyword).append_blank (List.cons_ne_nil ' ' []) space_skipped named
  simpa [writeType, typeTrees, Tree.pieces, Bracket.openingChar, Bracket.closingChar] using whole

end FieldDefinition

/-! Reading. -/

/-- Nothing that goes on with a type, a default or directives. -/
def Unmarked (trees : List (Tree Token)) : Prop :=
  ∀ punctuator after, trees ≠ .mark punctuator :: after

theorem unmarked_nil : Unmarked [] :=
  nofun

namespace Reader

variable {α β : Type}

theorem pure_apply (value : α) (trees : List (Tree Token)) :
    (pure value : Reader α) trees = some (value, trees) :=
  rfl

theorem bind_apply (reader : Reader α) (next : α → Reader β) (trees : List (Tree Token)) :
    (reader >>= next) trees = (reader trees).bind fun read => next read.1 read.2 :=
  rfl

theorem eachOf_cons {item : Reader α} {tree : Tree Token} {more rest : List (Tree Token)}
    {value : α} (read : item (tree :: more) = some (value, rest))
    (shorter : rest.length ≤ more.length) :
    eachOf item (tree :: more) = (each item rest).map (value :: ·) := by
  rw [eachOf, each, read]
  · simp [shorter]
  · simp

theorem eachOf_eq_each {item : Reader α} {trees : List (Tree Token)} (nonempty : trees ≠ []) :
    eachOf item trees = each item trees := by
  cases trees with
  | nil => exact absurd rfl nonempty
  | cons tree more => rfl

/-- Items are read one after the other, if each is read as far as the next one. -/
theorem each_flatMap {item : Reader α} {trees : α → List (Tree Token)} {reads : α → Prop}
    [DecidablePred reads] {values : List α}
    (starts : ∀ value ∈ values, trees value ≠ [] ∧ ∀ rest, Unmarked (trees value ++ rest))
    (read : ∀ value ∈ values, ∀ rest, Unmarked rest →
      item (trees value ++ rest) = if reads value then some (value, rest) else none) :
    each item (values.flatMap trees) =
      if ∀ value ∈ values, reads value then some values else none := by
  induction values with
  | nil =>
      rw [List.flatMap_nil, each]
      simp
  | cons value rest inductionHypothesis =>
      have others := inductionHypothesis
        (fun other member => starts other (List.mem_cons_of_mem value member))
        (fun other member => read other (List.mem_cons_of_mem value member))
      have unmarked : Unmarked (rest.flatMap trees) := by
        cases rest with
        | nil => exact unmarked_nil
        | cons next later =>
            rw [List.flatMap_cons]
            exact (starts next (by simp)).2 _
      have first := read value List.mem_cons_self _ unmarked
      obtain ⟨tree, more, written⟩ :=
        List.exists_cons_of_ne_nil (starts value List.mem_cons_self).1
      rw [written, List.cons_append] at first
      rw [List.flatMap_cons, written, List.cons_append]
      by_cases readsFirst : reads value
      · rw [if_pos readsFirst] at first
        rw [← eachOf_eq_each (List.cons_ne_nil tree _), eachOf_cons first (by simp), others]
        simp only [List.forall_mem_cons, readsFirst, true_and]
        split <;> rfl
      · rw [if_neg readsFirst] at first
        rw [each, first]
        simp [readsFirst]

theorem interfaces_group (bracket : Bracket) (members rest : List (Tree Token)) :
    interfaces (.group bracket members :: rest) = some ([], .group bracket members :: rest) :=
  rfl

theorem directives_unmarked {rest : List (Tree Token)} (unmarked : Unmarked rest) :
    directives rest = some ([], rest) := by
  rw [directives.eq_def]
  split
  · exact absurd rfl (unmarked _ _)
  · exact absurd rfl (unmarked _ _)
  · exact absurd rfl (unmarked _ _)
  · rfl

theorem directives_group (bracket : Bracket) (members rest : List (Tree Token)) :
    directives (.group bracket members :: rest) = some ([], .group bracket members :: rest) :=
  directives_unmarked (by simp [Unmarked])

/-- The word for a type is no word for a schema, a directive or an extension. -/
theorem definition_type (rest : List (Tree Token)) :
    definition (.name "type" :: rest) =
      (typeDeclaration "type" rest).map fun (declaration, left) =>
        (.type none declaration, left) := by
  simp only [definition, bind_apply, description, name, Option.bind_some]
  cases read : typeDeclaration "type" rest with
  | none => simp [bind_apply, read]
  | some declared => simp [bind_apply, pure_apply, read]

theorem default_unmarked {rest : List (Tree Token)} (unmarked : Unmarked rest) :
    default rest = some (none, rest) := by
  unfold default
  split
  · exact absurd rfl (unmarked _ _)
  · exact absurd rfl (unmarked _ _)
  · rfl

theorem description_trees (text : Option String) (name : String) (rest : List (Tree Token)) :
    description ((descriptionTrees text).map (Tree.map Lexeme.token) ++ .name name :: rest) =
      some (text, .name name :: rest) := by
  cases text with
  | none => rfl
  | some text =>
      rw [descriptionTrees, Literal.tree, List.map_singleton, Literal.map_leaf]
      rfl

theorem default_trees {literal? : Option Literal}
    (wellFormed : ∀ literal ∈ literal?, literal.WellFormed) {rest : List (Tree Token)}
    (unmarked : Unmarked rest) :
    default ((defaultTrees literal?).map (Tree.map Lexeme.token) ++ rest) =
      if ∀ literal ∈ literal?, (literal.tree.map Lexeme.token).depth ≤ Token.maxDepth then
        some (literal?, rest)
      else none := by
  cases literal? with
  | none => simpa [defaultTrees] using default_unmarked unmarked
  | some literal =>
      have read : Literal.read? (literal.tree.map Lexeme.token) =
          if (literal.tree.map Lexeme.token).depth ≤ Token.maxDepth then some literal
          else none := by
        rw [Literal.read?, Literal.ofTree?_tree (wellFormed literal rfl)]
      simp only [defaultTrees, equalsLexeme, List.map_cons, List.map_nil, Tree.map,
        List.cons_append, List.nil_append, default, read, Option.mem_some_iff, forall_eq']
      split <;> rfl

end Reader

theorem unmarked_described (text : Option String) (name : String) (rest : List (Tree Token)) :
    Unmarked ((descriptionTrees text).map (Tree.map Lexeme.token) ++ .name name :: rest) := by
  cases text with
  | none =>
      intro punctuator after same
      simp [descriptionTrees] at same
  | some text =>
      intro punctuator after same
      simp [descriptionTrees, Literal.tree, Tree.map] at same

namespace InputValueDefinition

theorem map_trees (value : InputValueDefinition) (rest : List (Tree Token)) :
    value.trees.map (Tree.map Lexeme.token) ++ rest =
      (descriptionTrees value.description).map (Tree.map Lexeme.token) ++
        .name value.name :: .mark .colon :: (value.type.trees.map (Tree.map Lexeme.token) ++
          ((defaultTrees value.default).map (Tree.map Lexeme.token) ++ rest)) := by
  simp [trees, nameLexeme, colonLexeme, Tree.map]

theorem inputValue_trees {value : InputValueDefinition} (writable : value.Writable)
    {rest : List (Tree Token)} (unmarked : Unmarked rest) :
    Reader.inputValue (value.trees.map (Tree.map Lexeme.token) ++ rest) =
      if value.IsShallow then some (value, rest) else none := by
  have default := Reader.default_trees writable.default unmarked
  have noBang : ∀ after,
      (defaultTrees value.default).map (Tree.map Lexeme.token) ++ rest ≠ .mark .bang :: after := by
    cases value.default with
    | none => exact unmarked .bang
    | some literal => simp [defaultTrees, equalsLexeme, Tree.map]
  have type := TypeRef.read_trees value.type noBang
  rw [map_trees]
  simp only [Reader.inputValue, Reader.bind_apply, Reader.pure_apply, Reader.description_trees,
    Reader.name, Reader.mark, Option.bind_some, if_true, type, IsShallow]
  by_cases shallowType : value.type.nesting ≤ Token.maxDepth
  · simp only [shallowType, if_true, Option.bind_some, true_and, default]
    split
    · simp only [Option.bind_some, Reader.directives_unmarked unmarked, ← writable.bare]
    · rfl
  · simp [shallowType]

theorem each_trees {arguments : List InputValueDefinition}
    (writable : ∀ argument ∈ arguments, argument.Writable) :
    Reader.each Reader.inputValue ((arguments.flatMap trees).map (Tree.map Lexeme.token)) =
      if ∀ argument ∈ arguments, argument.IsShallow then some arguments else none := by
  rw [List.map_flatMap]
  apply Reader.each_flatMap
  · intro argument _
    constructor
    · simp [trees]
    · intro rest
      rw [map_trees]
      exact unmarked_described _ _ _
  · intro argument member rest unmarked
    exact inputValue_trees (writable argument member) unmarked

end InputValueDefinition

theorem group?_parameterTrees {arguments : List InputValueDefinition}
    (writable : ∀ argument ∈ arguments, argument.Writable) (rest : List (Tree Token)) :
    Reader.group? .round Reader.inputValue
        ((parameterTrees arguments).map (Tree.map Lexeme.token) ++ .mark .colon :: rest) =
      if ∀ argument ∈ arguments, argument.IsShallow then some (arguments, .mark .colon :: rest)
      else none := by
  cases arguments with
  | nil => simp [parameterTrees, Reader.group?]
  | cons first others =>
      have read := InputValueDefinition.each_trees writable
      have nonempty : ((first :: others).flatMap InputValueDefinition.trees).map
          (Tree.map Lexeme.token) ≠ [] := by
        simp [InputValueDefinition.trees]
      rw [← Reader.eachOf_eq_each nonempty] at read
      simp only [parameterTrees, List.isEmpty_cons, Bool.false_eq_true, if_false, List.map_cons,
        List.map_nil, Tree.map, List.cons_append, List.nil_append, Reader.group?, if_true, read]
      split <;> rfl

namespace FieldDefinition

theorem field_trees {field : FieldDefinition} (writable : field.Writable) :
    Reader.field (field.trees.map (Tree.map Lexeme.token)) =
      if field.IsShallow then some (field, []) else none := by
  have type := @TypeRef.read_trees field.type [] nofun
  rw [List.append_nil] at type
  have parts : field.trees.map (Tree.map Lexeme.token) =
      (descriptionTrees field.description).map (Tree.map Lexeme.token) ++ .name field.name ::
        ((parameterTrees field.arguments).map (Tree.map Lexeme.token) ++
          .mark .colon :: field.type.trees.map (Tree.map Lexeme.token)) := by
    simp [trees, nameLexeme, colonLexeme, Tree.map]
  rw [parts]
  simp only [Reader.field, Reader.bind_apply, Reader.pure_apply, Reader.description_trees,
    Reader.name, group?_parameterTrees writable.arguments, Option.bind_some, IsShallow]
  by_cases shallowArguments : ∀ argument ∈ field.arguments, argument.IsShallow
  · rw [if_pos shallowArguments]
    simp only [Reader.mark, Option.bind_some, if_true, type, and_iff_right shallowArguments]
    by_cases shallowType : field.type.nesting ≤ Token.maxDepth
    · simp [shallowType, Reader.directives_unmarked unmarked_nil, ← writable.bare]
    · simp [shallowType]
  · simp [shallowArguments]

theorem definition_typeTrees {field : FieldDefinition} (writable : field.Writable) (owner : String)
    (rest : List (Tree Token)) :
    Reader.definition ((field.typeTrees owner).map (Tree.map Lexeme.token) ++ rest) =
      if field.IsShallow then some (.type none (.ofFields owner [field]), rest) else none := by
  have fields : Reader.eachOf Reader.field (field.trees.map (Tree.map Lexeme.token)) =
      if field.IsShallow then some [field] else none := by
    have read := field_trees writable
    obtain ⟨tree, more, written⟩ : ∃ tree more,
        field.trees.map (Tree.map Lexeme.token) = tree :: more :=
      List.exists_cons_of_ne_nil (by simp [trees])
    rw [written] at read ⊢
    by_cases shallow : field.IsShallow
    · rw [if_pos shallow] at read ⊢
      rw [Reader.eachOf_cons read (Nat.zero_le _), Reader.each]
      rfl
    · rw [if_neg shallow] at read ⊢
      rw [Reader.eachOf_eq_each (List.cons_ne_nil tree more), Reader.each, read]
  have body : Reader.typeDeclaration "type"
      (.name owner :: .group .curly (field.trees.map (Tree.map Lexeme.token)) :: rest) =
      if field.IsShallow then some (.ofFields owner [field], rest) else none := by
    simp only [Reader.typeDeclaration, Reader.bind_apply, Reader.pure_apply, Reader.name,
      Reader.interfaces_group, Reader.directives_group, Reader.group?, fields, Option.bind_some,
      if_true, TypeDeclaration.ofFields]
    split <;> rfl
  simp only [typeTrees, List.map_cons, List.map_nil, List.cons_append, List.nil_append,
    Literal.map_leaf, nameLexeme, Tree.map]
  rw [Reader.definition_type, body]
  split <;> rfl

/-- The trees of the type come before those of the text below it. -/
theorem trees?_above {field : FieldDefinition} (writable : field.Writable) {owner : String}
    (valid : isName owner = true) {rest : String} {others : List (Tree Token)}
    (read : Token.trees? rest = some others) :
    Token.trees? (field.above owner rest) =
      some ((field.typeTrees owner).map (Tree.map Lexeme.token) ++ others) := by
  simp only [Token.trees?, Token.pieces?_eq_map_lexemes?, Option.bind_eq_some_iff,
    Option.map_eq_some_iff] at read
  obtain ⟨_, ⟨lexemes, lexed, rfl⟩, grouped⟩ := read
  have line : Token.lexemes? ('\n' :: rest.toList) = some lexemes := by
    rw [← List.singleton_append, Token.lexesFreely_skipped (by decide), lexed]
    rfl
  have whole := lexes_writeType writable valid ('\n' :: rest.toList)
    (Token.endsToken_skipped (by decide) _)
  have pieces : ((field.typeTrees owner).flatMap Tree.pieces ++ lexemes).map
      (Piece.map Lexeme.token) =
        ((field.typeTrees owner).map (Tree.map Lexeme.token) ++ others).flatMap Tree.pieces := by
    rw [List.map_append, List.flatMap_append, Tree.flatMap_pieces_of_ofPieces? grouped,
      List.map_flatMap, List.flatMap_map]
    simp only [Tree.pieces_map]
  rw [Token.trees?, above, String.toList_ofList, Token.pieces?_eq_map_lexemes?, whole, line,
    Option.map_some, Option.map_some, Option.bind_some, pieces, Tree.ofPieces?_flatMap_pieces]

/-- A document with the type above it is read as the document with the type in front,
unless something in the type is nested too deep. -/
theorem read?_above {field : FieldDefinition} (writable : field.Writable) {owner : String}
    (valid : isName owner = true) {rest : String} {document : Document}
    (read : Document.read? rest = some document) :
    Document.read? (field.above owner rest) =
      if field.IsShallow then some (document.withType owner [field]) else none := by
  obtain ⟨others, trees, eachOther⟩ := Option.bind_eq_some_iff.mp read
  have nonempty : others ≠ [] := by
    rintro rfl
    contradiction
  have first := definition_typeTrees writable owner others
  rw [Reader.eachOf_eq_each nonempty] at eachOther
  rw [Document.read?, trees?_above writable valid trees, Option.bind_some]
  rw [typeTrees, List.map_cons, List.cons_append] at first ⊢
  by_cases shallow : field.IsShallow
  · rw [if_pos shallow] at first ⊢
    rw [Reader.eachOf_cons first, eachOther]
    · rfl
    · simp only [List.map_cons, List.map_nil, List.cons_append, List.nil_append, List.length_cons]
      omega
  · rw [if_neg shallow] at first ⊢
    rw [Reader.eachOf_eq_each (List.cons_ne_nil _ _), Reader.each, first]

end FieldDefinition

end Toolsmith.GraphQL

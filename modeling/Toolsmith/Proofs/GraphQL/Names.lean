import Mathlib.Data.List.TakeWhile
import Toolsmith.GraphQL.Document.Reader
import Toolsmith.Proofs.Bracketed
import Toolsmith.Proofs.GraphQL.Lexeme
import Toolsmith.Proofs.Json.Names

/-!
The names in a document are names. Tokens are read as names only where names stand, brackets change
no token, and what a document declares takes its names from its tokens.
-/

set_option autoImplicit false

namespace Toolsmith

namespace GraphQL

/-! Tokens. -/

/-- A name token holds a name. -/
def Token.IsValid (token : Token) : Prop :=
  ∀ text, token = .name text → isName text = true

/-- All tokens in a tree are valid. -/
def TreeIsValid (tree : Tree Token) : Prop :=
  ∀ token, .token token ∈ tree.pieces → token.IsValid

def TreesAreValid (trees : List (Tree Token)) : Prop :=
  ∀ tree ∈ trees, TreeIsValid tree

theorem Token.isValid_of_readPiece {text rest : List Char} {token : Token}
    (read : readPiece text = some (.token token, rest)) : token.IsValid := by
  obtain ⟨c, text, rfl⟩ : ∃ c others, text = c :: others := by
    cases text with
    | nil => contradiction
    | cons c others => exact ⟨c, others, rfl⟩
  unfold readPiece at read
  split at read
  case h_17 =>
    rename_i same
    obtain ⟨rfl, rfl⟩ := List.cons.inj same
    by_cases start : isNameStart c = true
    · rw [if_pos start, readName, Option.some.injEq, Prod.mk.injEq] at read
      obtain ⟨same, _⟩ := read
      rintro name rfl
      simp only [Piece.token.injEq, Token.name.injEq] at same
      subst same
      refine isName_iff.mpr ⟨c, _, String.toList_ofList, start, ?_⟩
      rw [List.all_eq_true]
      exact fun d member => List.mem_takeWhile_imp member
    · rw [if_neg start, readNumber] at read
      split at read
      · rename_i numeral after _
        split at read
        · simp only [Option.some.injEq, Prod.mk.injEq, Piece.token.injEq] at read
          rintro name rfl
          cases numeral with
          | integer value => simp [ofNumeral] at read
          | decimal value => simp [ofNumeral] at read
        · contradiction
      · contradiction
  all_goals
    rintro name rfl
    simp at read

theorem Token.isValid_of_pieces? {text : List Char} {pieces : List (Piece Token)}
    (read : pieces? text = some pieces) {token : Token} (member : .token token ∈ pieces) :
    token.IsValid := by
  fun_induction pieces? text generalizing pieces with
  | case1 =>
      obtain rfl := Option.some.inj read
      contradiction
  | case2 c rest _ inductionHypothesis => exact inductionHypothesis read member
  | case3 rest _ inductionHypothesis => exact inductionHypothesis read member
  | case4 => contradiction
  | case5 c rest _ _ piece after found inductionHypothesis =>
      simp only [Option.map_eq_some_iff] at read
      obtain ⟨others, readOthers, rfl⟩ := read
      rcases List.mem_cons.mp member with rfl | later
      · exact isValid_of_readPiece found
      · exact inductionHypothesis readOthers later

theorem treesAreValid_of_trees? {text : String} {trees : List (Tree Token)}
    (read : Token.trees? text = some trees) : TreesAreValid trees := by
  obtain ⟨pieces, readPieces, readTrees⟩ := Option.bind_eq_some_iff.mp read
  intro tree member token included
  have whole := Tree.flatMap_pieces_of_ofPieces? readTrees
  apply Token.isValid_of_pieces? readPieces
  rw [← whole]
  exact List.mem_flatMap.mpr ⟨tree, member, included⟩

theorem isName_of_valid {text : String} {trees : List (Tree Token)}
    (valid : TreesAreValid (.name text :: trees)) : isName text = true :=
  valid (.name text) List.mem_cons_self (.name text) (by simp [Tree.pieces]) text rfl

theorem TreesAreValid.of_suffix {trees rest : List (Tree Token)} (valid : TreesAreValid trees)
    (suffix : rest <:+ trees) : TreesAreValid rest :=
  fun tree member => valid tree (suffix.subset member)

theorem TreeIsValid.members {bracket : Bracket} {members : List (Tree Token)}
    (valid : TreeIsValid (.group bracket members)) : TreesAreValid members := by
  intro tree member token included
  apply valid token
  rw [Tree.pieces]
  simp only [List.cons_append, List.mem_cons, List.mem_append, List.mem_flatMap]
  exact .inr (.inl ⟨tree, member, included⟩)

theorem TreesAreValid.members {bracket : Bracket} {members trees : List (Tree Token)}
    (valid : TreesAreValid (.group bracket members :: trees)) : TreesAreValid members :=
  TreeIsValid.members (valid (.group bracket members) List.mem_cons_self)

/-! Literals. -/

namespace Literal

mutual

/-- The fields of objects in a literal have names. -/
theorem hasNames_of_ofTree? {tree : Tree Token} {literal : Literal} (valid : TreeIsValid tree)
    (read : ofTree? tree = some literal) : literal.toJson.hasNames = true := by
  match tree with
  | .leaf token =>
    cases token with
    | name text =>
        obtain rfl := Option.some.inj read
        unfold ofName
        split <;> rfl
    | mark => contradiction
    | _ =>
        obtain rfl := Option.some.inj read
        rfl
  | .group .round members => contradiction
  | .group .square members =>
    obtain ⟨items, readItems, rfl⟩ := Option.map_eq_some_iff.mp read
    rw [toJson, itemsToJson_eq_map, Json.hasNames_arr, List.forall_mem_map]
    exact hasNames_of_items? valid.members readItems
  | .group .curly members =>
    obtain ⟨fields, readFields, rfl⟩ := Option.map_eq_some_iff.mp read
    rw [toJson, fieldsToJson_eq_map, Json.hasNames_obj, List.forall_mem_map]
    exact hasNames_of_fields? valid.members readFields

theorem hasNames_of_items? {members : List (Tree Token)} {items : List Literal}
    (valid : TreesAreValid members) (read : items? members = some items) :
    ∀ item ∈ items, item.toJson.hasNames = true := by
  match members with
  | [] =>
    obtain rfl := Option.some.inj read
    exact nofun
  | tree :: rest =>
    obtain ⟨treeValid, restValid⟩ := List.forall_mem_cons.mp valid
    simp only [items?, Option.bind_eq_bind, Option.bind_eq_some_iff] at read
    obtain ⟨item, readItem, others, readOthers, collected⟩ := read
    obtain rfl := Option.some.inj collected
    exact List.forall_mem_cons.mpr
      ⟨hasNames_of_ofTree? treeValid readItem, hasNames_of_items? restValid readOthers⟩

theorem hasNames_of_fields? {members : List (Tree Token)} {fields : List (String × Literal)}
    (valid : TreesAreValid members) (read : fields? members = some fields) :
    ∀ field ∈ fields, isName field.1 = true ∧ field.2.toJson.hasNames = true := by
  match members with
  | [] =>
    obtain rfl := Option.some.inj read
    exact nofun
  | .name name :: .mark .colon :: tree :: rest =>
    simp only [fields?, Option.bind_eq_bind, Option.bind_eq_some_iff] at read
    obtain ⟨value, readValue, others, readOthers, collected⟩ := read
    obtain rfl := Option.some.inj collected
    have restValid := valid.of_suffix (List.suffix_append [_, _, _] rest)
    refine List.forall_mem_cons.mpr
      ⟨⟨isName_of_valid valid, ?_⟩, hasNames_of_fields? restValid readOthers⟩
    exact hasNames_of_ofTree? (valid tree (by simp)) readValue

end

theorem hasNames_of_read? {tree : Tree Token} {literal : Literal} (valid : TreeIsValid tree)
    (read : read? tree = some literal) : literal.toJson.hasNames = true := by
  unfold read? at read
  split at read
  · exact hasNames_of_ofTree? valid read
  · contradiction

end Literal

/-! Readers. -/

/-- From valid trees a reader yields what meets a condition, and leaves valid trees. -/
def Reader.Yields {α : Type} (meets : α → Prop) (reader : Reader α) : Prop :=
  ∀ trees value rest, TreesAreValid trees → reader trees = some (value, rest) →
    meets value ∧ TreesAreValid rest

namespace Reader

variable {α β : Type}

theorem Yields.pure {meets : α → Prop} {value : α} (met : meets value) :
    Yields meets (Pure.pure value : Reader α) := by
  intro trees result rest valid read
  obtain ⟨rfl, rfl⟩ := Prod.mk.inj (Option.some.inj read)
  exact ⟨met, valid⟩

theorem Yields.bind {between : α → Prop} {meets : β → Prop} {reader : Reader α}
    {next : α → Reader β} (first : Yields between reader)
    (second : ∀ value, between value → Yields meets (next value)) :
    Yields meets (reader >>= next) := by
  intro trees value rest valid read
  obtain ⟨⟨middle, left⟩, readFirst, readSecond⟩ := Option.bind_eq_some_iff.mp read
  obtain ⟨met, leftValid⟩ := first trees middle left valid readFirst
  exact second middle met left value rest leftValid readSecond

theorem Yields.failure {meets : α → Prop} : Yields meets (Alternative.failure : Reader α) := by
  intro trees value rest valid read
  contradiction

theorem yields_guard {condition : Prop} [Decidable condition] :
    Yields (fun _ => True) (guard condition : Reader Unit) := by
  by_cases holds : condition
  · rw [guard, if_pos holds]
    exact .pure trivial
  · rw [guard, if_neg holds]
    exact .failure

/-- A reader that only passes over trees. -/
theorem Yields.of_suffix {reader : Reader α}
    (suffix : ∀ trees value rest, reader trees = some (value, rest) → rest <:+ trees) :
    Yields (fun _ => True) reader := by
  intro trees value rest valid read
  exact ⟨trivial, valid.of_suffix (suffix trees value rest read)⟩

theorem yields_name : Yields (fun text => isName text = true) name := by
  intro trees value rest valid read
  unfold name at read
  split at read
  · obtain ⟨rfl, rfl⟩ := Prod.mk.inj (Option.some.inj read)
    exact ⟨isName_of_valid valid, valid.of_suffix (List.suffix_cons _ _)⟩
  · contradiction

theorem yields_word (expected : String) : Yields (fun _ => True) (word expected) := by
  apply Yields.of_suffix
  intro trees value rest read
  unfold word at read
  split at read
  · split at read
    · obtain ⟨_, rfl⟩ := Prod.mk.inj (Option.some.inj read)
      exact List.suffix_cons _ _
    · contradiction
  · contradiction

theorem yields_mark (expected : Punctuator) : Yields (fun _ => True) (mark expected) := by
  apply Yields.of_suffix
  intro trees value rest read
  unfold mark at read
  split at read
  · split at read
    · obtain ⟨_, rfl⟩ := Prod.mk.inj (Option.some.inj read)
      exact List.suffix_cons _ _
    · contradiction
  · contradiction

theorem yields_word? (expected : String) : Yields (fun _ => True) (word? expected) := by
  apply Yields.of_suffix
  intro trees value rest read
  unfold word? at read
  split at read
  · split at read
    · obtain ⟨_, rfl⟩ := Prod.mk.inj (Option.some.inj read)
      exact List.suffix_cons _ _
    · obtain ⟨_, rfl⟩ := Prod.mk.inj (Option.some.inj read)
      exact List.suffix_refl _
  · obtain ⟨_, rfl⟩ := Prod.mk.inj (Option.some.inj read)
    exact List.suffix_refl _

theorem yields_mark? (expected : Punctuator) : Yields (fun _ => True) (mark? expected) := by
  apply Yields.of_suffix
  intro trees value rest read
  unfold mark? at read
  split at read
  · split at read
    · obtain ⟨_, rfl⟩ := Prod.mk.inj (Option.some.inj read)
      exact List.suffix_cons _ _
    · obtain ⟨_, rfl⟩ := Prod.mk.inj (Option.some.inj read)
      exact List.suffix_refl _
  · obtain ⟨_, rfl⟩ := Prod.mk.inj (Option.some.inj read)
    exact List.suffix_refl _

theorem yields_description : Yields (fun _ => True) description := by
  apply Yields.of_suffix
  intro trees value rest read
  unfold description at read
  split at read
  · obtain ⟨_, rfl⟩ := Prod.mk.inj (Option.some.inj read)
    exact List.suffix_cons _ _
  · obtain ⟨_, rfl⟩ := Prod.mk.inj (Option.some.inj read)
    exact List.suffix_refl _

theorem yields_type : Yields (fun _ => True) (TypeRef.read : Reader TypeRef) := by
  apply Yields.of_suffix
  intro trees value rest read
  unfold TypeRef.read at read
  split at read
  · obtain ⟨_, _, same⟩ := Option.map_eq_some_iff.mp read
    obtain ⟨_, rfl⟩ := Prod.mk.inj same
    exact List.suffix_append [_, _] _
  · obtain ⟨_, _, same⟩ := Option.map_eq_some_iff.mp read
    obtain ⟨_, rfl⟩ := Prod.mk.inj same
    exact List.suffix_cons _ _
  · contradiction

theorem yields_default :
    Yields (fun default => ∀ literal ∈ default, literal.toJson.hasNames = true) default := by
  intro trees value rest valid read
  unfold default at read
  split at read
  · obtain ⟨literal, readLiteral, same⟩ := Option.map_eq_some_iff.mp read
    obtain ⟨rfl, rfl⟩ := Prod.mk.inj same
    refine ⟨?_, valid.of_suffix (List.suffix_append [_, _] _)⟩
    rintro _ ⟨⟩
    exact Literal.hasNames_of_read? (valid _ (by simp)) readLiteral
  · contradiction
  · obtain ⟨rfl, rfl⟩ := Prod.mk.inj (Option.some.inj read)
    exact ⟨nofun, valid⟩

theorem suffix_of_directives {trees rest : List (Tree Token)} {applied : List Directive}
    (read : directives trees = some (applied, rest)) : rest <:+ trees := by
  fun_induction directives trees generalizing applied rest with
  | case1 name later argument arguments literals others left readOthers readArguments
      inductionHypothesis =>
      simp only [readArguments, readOthers, Option.some.injEq, Prod.mk.injEq] at read
      obtain ⟨_, rfl⟩ := read
      exact (inductionHypothesis readOthers).trans (List.suffix_append [_, _, _] _)
  | case2 name members later unread =>
      split at read
      · exact (unread _ _ _ _ _ rfl ‹_› ‹_›).elim
      · contradiction
  | case3 name later _ inductionHypothesis =>
      obtain ⟨⟨others, left⟩, readOthers, same⟩ := Option.map_eq_some_iff.mp read
      obtain ⟨_, rfl⟩ := Prod.mk.inj same
      exact (inductionHypothesis readOthers).trans (List.suffix_append [_, _] _)
  | case4 => contradiction
  | case5 =>
      obtain ⟨_, rfl⟩ := Prod.mk.inj (Option.some.inj read)
      exact List.suffix_refl _

theorem suffix_of_moreNames {between : Punctuator} {trees rest : List (Tree Token)}
    {names : List String} (read : moreNames between trees = some (names, rest)) :
    rest <:+ trees := by
  fun_induction moreNames between trees generalizing names rest with
  | case1 text later inductionHypothesis =>
      obtain ⟨⟨others, left⟩, readOthers, same⟩ := Option.map_eq_some_iff.mp read
      obtain ⟨_, rfl⟩ := Prod.mk.inj same
      exact (inductionHypothesis readOthers).trans (List.suffix_append [_, _] _)
  | case2 =>
      obtain ⟨_, rfl⟩ := Prod.mk.inj (Option.some.inj read)
      exact List.suffix_refl _
  | case3 => contradiction
  | case4 =>
      obtain ⟨_, rfl⟩ := Prod.mk.inj (Option.some.inj read)
      exact List.suffix_refl _
  | case5 =>
      obtain ⟨_, rfl⟩ := Prod.mk.inj (Option.some.inj read)
      exact List.suffix_refl _

theorem yields_directives : Yields (fun _ => True) directives :=
  .of_suffix fun _ _ _ => suffix_of_directives

/-- Names that are separated by marks are not among those that are declared. -/
theorem yields_separated (between : Punctuator) : Yields (fun _ => True) (separated between) := by
  unfold separated
  refine (yields_mark? between).bind fun _ _ => ?_
  refine yields_name.bind fun _ _ => ?_
  refine Yields.bind (.of_suffix fun _ _ _ => suffix_of_moreNames) fun _ _ => ?_
  exact .pure trivial

theorem yields_each {meets : α → Prop} {item : Reader α} (yields : Yields meets item)
    {trees : List (Tree Token)} {values : List α} (valid : TreesAreValid trees)
    (read : each item trees = some values) : ∀ value ∈ values, meets value := by
  fun_induction each item trees generalizing values with
  | case1 =>
      obtain rfl := Option.some.inj read
      exact nofun
  | case2 => contradiction
  | case3 tree more value rest readItem shorter inductionHypothesis =>
      obtain ⟨others, readOthers, rfl⟩ := Option.map_eq_some_iff.mp read
      obtain ⟨met, restValid⟩ := yields _ _ _ valid readItem
      exact List.forall_mem_cons.mpr ⟨met, inductionHypothesis restValid readOthers⟩
  | case4 => contradiction

theorem yields_eachOf {meets : α → Prop} {item : Reader α} (yields : Yields meets item)
    {trees : List (Tree Token)} {values : List α} (valid : TreesAreValid trees)
    (read : eachOf item trees = some values) : ∀ value ∈ values, meets value := by
  unfold eachOf at read
  split at read
  · contradiction
  · exact yields_each yields valid read

theorem yields_group? {meets : α → Prop} (bracket : Bracket) {item : Reader α}
    (yields : Yields meets item) :
    Yields (fun values => ∀ value ∈ values, meets value) (group? bracket item) := by
  intro trees values rest valid read
  unfold group? at read
  split at read
  · split at read
    · obtain ⟨items, readItems, same⟩ := Option.map_eq_some_iff.mp read
      obtain ⟨rfl, rfl⟩ := Prod.mk.inj same
      exact ⟨yields_eachOf yields valid.members readItems,
        valid.of_suffix (List.suffix_cons _ _)⟩
    · obtain ⟨rfl, rfl⟩ := Prod.mk.inj (Option.some.inj read)
      exact ⟨nofun, valid⟩
  · obtain ⟨rfl, rfl⟩ := Prod.mk.inj (Option.some.inj read)
    exact ⟨nofun, valid⟩

theorem yields_group {meets : α → Prop} (bracket : Bracket) {item : Reader α}
    (yields : Yields meets item) :
    Yields (fun values => ∀ value ∈ values, meets value) (group bracket item) := by
  intro trees values rest valid read
  unfold group at read
  split at read
  · split at read
    · obtain ⟨items, readItems, same⟩ := Option.map_eq_some_iff.mp read
      obtain ⟨rfl, rfl⟩ := Prod.mk.inj same
      exact ⟨yields_eachOf yields valid.members readItems,
        valid.of_suffix (List.suffix_cons _ _)⟩
    · contradiction
  · contradiction

end Reader

/-! What is declared has a name. -/

/-- An argument or a field of an input type has a name, and so have all fields in its default. -/
structure InputValueDefinition.IsNamed (definition : InputValueDefinition) : Prop where
  name : isName definition.name = true
  default : ∀ literal ∈ definition.default, literal.toJson.hasNames = true

def FieldDefinition.IsNamed (definition : FieldDefinition) : Prop :=
  isName definition.name = true ∧ ∀ argument ∈ definition.arguments, argument.IsNamed

def EnumValueDefinition.IsNamed (definition : EnumValueDefinition) : Prop :=
  isName definition.name = true

structure TypeDeclaration.IsNamed (declaration : TypeDeclaration) : Prop where
  name : isName declaration.name = true
  outputFields : ∀ field ∈ declaration.body.outputFields, field.IsNamed
  inputFields : ∀ field ∈ declaration.body.inputFields, field.IsNamed
  enumValues : ∀ value ∈ declaration.body.enumValues, value.IsNamed

/-- What a definition declares of types is named. -/
def Definition.IsNamed : Definition → Prop
  | .type _ declaration => declaration.IsNamed
  | .extendType declaration => declaration.IsNamed
  | _ => True

namespace Reader

theorem yields_inputValue : Yields InputValueDefinition.IsNamed inputValue := by
  unfold inputValue
  refine yields_description.bind fun _ _ => ?_
  refine yields_name.bind fun _ named => ?_
  refine (yields_mark .colon).bind fun _ _ => ?_
  refine yields_type.bind fun _ _ => ?_
  refine yields_default.bind fun _ default => ?_
  refine yields_directives.bind fun _ _ => ?_
  exact .pure ⟨named, default⟩

theorem yields_field : Yields FieldDefinition.IsNamed field := by
  unfold field
  refine yields_description.bind fun _ _ => ?_
  refine yields_name.bind fun _ named => ?_
  refine (yields_group? .round yields_inputValue).bind fun _ arguments => ?_
  refine (yields_mark .colon).bind fun _ _ => ?_
  refine yields_type.bind fun _ _ => ?_
  refine yields_directives.bind fun _ _ => ?_
  exact .pure ⟨named, arguments⟩

theorem yields_enumValue : Yields EnumValueDefinition.IsNamed enumValue := by
  unfold enumValue
  refine yields_description.bind fun _ _ => ?_
  refine yields_name.bind fun _ named => ?_
  refine yields_guard.bind fun _ _ => ?_
  refine yields_directives.bind fun _ _ => ?_
  exact .pure named

theorem yields_interfaces : Yields (fun _ => True) interfaces := by
  unfold interfaces
  refine (yields_word? "implements").bind fun present _ => ?_
  split
  · exact yields_separated .ampersand
  · exact .pure trivial

theorem yields_members : Yields (fun _ => True) members := by
  unfold members
  refine (yields_mark? .equals).bind fun present _ => ?_
  split
  · exact yields_separated .bar
  · exact .pure trivial

theorem yields_typeDeclaration (kind : String) :
    Yields TypeDeclaration.IsNamed (typeDeclaration kind) := by
  unfold typeDeclaration
  refine yields_name.bind fun _ named => ?_
  split
  · refine yields_directives.bind fun _ _ => ?_
    exact .pure ⟨named, nofun, nofun, nofun⟩
  · refine yields_interfaces.bind fun _ _ => ?_
    refine yields_directives.bind fun _ _ => ?_
    refine (yields_group? .curly yields_field).bind fun _ fields => ?_
    exact .pure ⟨named, fields, nofun, nofun⟩
  · refine yields_interfaces.bind fun _ _ => ?_
    refine yields_directives.bind fun _ _ => ?_
    refine (yields_group? .curly yields_field).bind fun _ fields => ?_
    exact .pure ⟨named, fields, nofun, nofun⟩
  · refine yields_directives.bind fun _ _ => ?_
    refine yields_members.bind fun _ _ => ?_
    exact .pure ⟨named, nofun, nofun, nofun⟩
  · refine yields_directives.bind fun _ _ => ?_
    refine (yields_group? .curly yields_enumValue).bind fun _ values => ?_
    exact .pure ⟨named, nofun, nofun, values⟩
  · refine yields_directives.bind fun _ _ => ?_
    refine (yields_group? .curly yields_inputValue).bind fun _ fields => ?_
    exact .pure ⟨named, nofun, fields, nofun⟩
  · exact .failure

theorem yields_root : Yields (fun _ => True) root := by
  unfold root
  refine yields_name.bind fun _ _ => ?_
  refine (yields_mark .colon).bind fun _ _ => ?_
  refine yields_name.bind fun _ _ => ?_
  split
  · exact .pure trivial
  · exact .failure

theorem yields_directiveDefinition : Yields (fun _ => True) directiveDefinition := by
  unfold directiveDefinition
  refine (yields_mark .atSign).bind fun _ _ => ?_
  refine yields_name.bind fun _ _ => ?_
  refine (yields_group? .round yields_inputValue).bind fun _ _ => ?_
  refine (yields_word? "repeatable").bind fun _ _ => ?_
  refine (yields_word "on").bind fun _ _ => ?_
  refine (yields_separated .bar).bind fun _ _ => ?_
  split
  · exact .pure trivial
  · exact .failure

theorem yields_extension : Yields Definition.IsNamed extension := by
  unfold extension
  refine yields_name.bind fun _ _ => ?_
  split
  · refine yields_directives.bind fun _ _ => ?_
    refine (yields_group? .curly yields_root).bind fun _ _ => ?_
    refine yields_guard.bind fun _ _ => ?_
    exact .pure trivial
  · refine (yields_typeDeclaration _).bind fun _ named => ?_
    refine yields_guard.bind fun _ _ => ?_
    exact .pure named

theorem yields_definition : Yields Definition.IsNamed definition := by
  unfold definition
  refine yields_description.bind fun _ _ => ?_
  refine yields_name.bind fun _ _ => ?_
  split
  · refine yields_directives.bind fun _ _ => ?_
    refine (yields_group .curly yields_root).bind fun _ _ => ?_
    exact .pure trivial
  · refine yields_directiveDefinition.bind fun _ _ => ?_
    exact .pure trivial
  · refine yields_guard.bind fun _ _ => ?_
    exact yields_extension
  · refine (yields_typeDeclaration _).bind fun _ named => ?_
    exact .pure named

end Reader

theorem isNamed_of_read? {text : String} {document : Document}
    (read : Document.read? text = some document) :
    ∀ definition ∈ document, definition.IsNamed := by
  obtain ⟨trees, readTrees, readDefinitions⟩ := Option.bind_eq_some_iff.mp read
  exact Reader.yields_eachOf Reader.yields_definition (treesAreValid_of_trees? readTrees)
    readDefinitions

theorem isNamed_typeDeclarations {document : Document}
    (named : ∀ definition ∈ document, definition.IsNamed) :
    ∀ declaration ∈ document.typeDeclarations, declaration.IsNamed := by
  intro declaration member
  rcases List.mem_append.mp member with defined | extended
  · obtain ⟨description, included⟩ := Document.mem_typeDefinitions.mp defined
    exact named _ included
  · exact named _ (Document.mem_typeExtensions.mp extended)

end GraphQL

end Toolsmith

import Toolsmith.Proofs.GraphQL.Document.Declaration
import Toolsmith.Proofs.GraphQL.Line

/-!
Documents one above the other. A definition goes on as long as it can, and the next one starts with
a description or with a word that no definition goes on with; so texts that are documents make up
the document of all their definitions, each on lines of its own.
-/

set_option autoImplicit false

namespace Toolsmith.GraphQL

/-- The words that a definition starts with. -/
def definitionWords : List String :=
  ["schema", "directive", "extend", "scalar", "type", "interface", "union", "enum", "input"]

/-- Trees that may start with a definition, or none at all. -/
inductive OpensDefinition : List (Tree Token) → Prop
  | nil : OpensDefinition []
  | description (text : String) (rest : List (Tree Token)) :
      OpensDefinition (.leaf (.str text) :: rest)
  | word {text : String} (member : text ∈ definitionWords) (rest : List (Tree Token)) :
      OpensDefinition (.name text :: rest)

/-- A tree that opens no definition stands in front only if it stood there before. -/
theorem OpensDefinition.append_ne {tree : Tree Token} {trees more : List (Tree Token)}
    (opens : OpensDefinition more) (inside : ∀ after, ¬ OpensDefinition (tree :: after))
    (other : ∀ after, trees ≠ tree :: after) : ∀ after, trees ++ more ≠ tree :: after := by
  intro after same
  cases trees with
  | nil =>
      rw [List.nil_append] at same
      exact inside after (same ▸ opens)
  | cons first trees => exact other trees (by rw [(List.cons.inj same).1])

theorem not_opensDefinition_mark (punctuator : Punctuator) (after : List (Tree Token)) :
    ¬ OpensDefinition (.mark punctuator :: after) := by
  intro opens
  cases opens

theorem not_opensDefinition_group (bracket : Bracket) (members after : List (Tree Token)) :
    ¬ OpensDefinition (.group bracket members :: after) := by
  intro opens
  cases opens

theorem OpensDefinition.unmarked_append {trees more : List (Tree Token)}
    (opens : OpensDefinition more) (unmarked : Unmarked trees) : Unmarked (trees ++ more) :=
  fun punctuator => opens.append_ne (not_opensDefinition_mark punctuator) (unmarked punctuator)

/-- What the reader takes, it takes as well when a definition follows, and no more than that. -/
def Reader.Settles {α : Type} (reader : Reader α) : Prop :=
  ∀ trees value rest more, OpensDefinition more → reader trees = some (value, rest) →
    reader (trees ++ more) = some (value, rest ++ more)

namespace Reader

variable {α β : Type}

theorem Settles.pure (value : α) : Settles (Pure.pure value : Reader α) := by
  intro trees result rest more opens read
  obtain ⟨rfl, rfl⟩ := Prod.mk.inj (Option.some.inj read)
  rfl

theorem Settles.bind {reader : Reader α} {next : α → Reader β} (first : Settles reader)
    (second : ∀ value, Settles (next value)) : Settles (reader >>= next) := by
  intro trees value rest more opens read
  obtain ⟨⟨middle, left⟩, readFirst, readSecond⟩ := Option.bind_eq_some_iff.mp read
  rw [bind_apply, first trees middle left more opens readFirst]
  exact second middle left value rest more opens readSecond

theorem Settles.failure : Settles (Alternative.failure : Reader α) := by
  intro trees value rest more opens read
  contradiction

theorem settles_guard (condition : Prop) [Decidable condition] :
    Settles (guard condition : Reader Unit) := by
  by_cases holds : condition
  · rw [guard, if_pos holds]
    exact .pure ()
  · rw [guard, if_neg holds]
    exact .failure

/-- A reader that looks at the first tree and no further. -/
theorem Settles.of_first {reader : Reader α}
    (first : ∀ tree rest, reader (tree :: rest) =
      (reader [tree]).map fun (value, left) => (value, left ++ rest))
    (before : ∀ value rest more, OpensDefinition more → reader [] = some (value, rest) →
      reader more = some (value, rest ++ more)) : Settles reader := by
  intro trees value rest more opens read
  cases trees with
  | nil => exact before value rest more opens read
  | cons tree trees =>
      rw [first, Option.map_eq_some_iff] at read
      obtain ⟨⟨result, left⟩, read, same⟩ := read
      obtain ⟨rfl, rfl⟩ := Prod.mk.inj same
      rw [List.cons_append, first, read, Option.map_some, List.append_assoc]

theorem settles_name : Settles name := by
  apply Settles.of_first
  · intro tree rest
    rcases tree with token | group
    · cases token <;> rfl
    · rfl
  · intro value rest more opens read
    contradiction

theorem settles_word (expected : String) : Settles (word expected) := by
  apply Settles.of_first
  · intro tree rest
    rcases tree with token | group
    · cases token with
      | name text =>
          simp only [word]
          split <;> rfl
      | _ => rfl
    · rfl
  · intro value rest more opens read
    contradiction

theorem settles_mark (expected : Punctuator) : Settles (mark expected) := by
  apply Settles.of_first
  · intro tree rest
    rcases tree with token | group
    · cases token with
      | mark punctuator =>
          simp only [mark]
          split <;> rfl
      | _ => rfl
    · rfl
  · intro value rest more opens read
    contradiction

theorem settles_word? {expected : String} (inside : expected ∉ definitionWords) :
    Settles (word? expected) := by
  apply Settles.of_first
  · intro tree rest
    rcases tree with token | group
    · cases token with
      | name text =>
          simp only [word?]
          split <;> rfl
      | _ => rfl
    · rfl
  · intro value rest more opens read
    obtain ⟨rfl, rfl⟩ := Prod.mk.inj (Option.some.inj read)
    cases opens with
    | word member =>
        refine if_neg ?_
        rintro rfl
        exact inside member
    | _ => rfl

theorem settles_mark? (expected : Punctuator) : Settles (mark? expected) := by
  apply Settles.of_first
  · intro tree rest
    rcases tree with token | group
    · cases token with
      | mark punctuator =>
          simp only [mark?]
          split <;> rfl
      | _ => rfl
    · rfl
  · intro value rest more opens read
    obtain ⟨rfl, rfl⟩ := Prod.mk.inj (Option.some.inj read)
    cases opens <;> rfl

theorem settles_group? (bracket : Bracket) (item : Reader α) : Settles (group? bracket item) := by
  apply Settles.of_first
  · intro tree rest
    rcases tree with token | ⟨opened, members⟩
    · rfl
    · simp only [group?]
      split
      · cases eachOf item members <;> rfl
      · rfl
  · intro value rest more opens read
    obtain ⟨rfl, rfl⟩ := Prod.mk.inj (Option.some.inj read)
    cases opens <;> rfl

theorem settles_group (bracket : Bracket) (item : Reader α) : Settles (group bracket item) := by
  apply Settles.of_first
  · intro tree rest
    rcases tree with token | ⟨opened, members⟩
    · rfl
    · simp only [group]
      split
      · cases eachOf item members <;> rfl
      · rfl
  · intro value rest more opens read
    contradiction

theorem moreNames_other {between punctuator : Punctuator} (other : punctuator ≠ between)
    (trees : List (Tree Token)) :
    moreNames between (.mark punctuator :: trees) = some ([], .mark punctuator :: trees) := by
  unfold moreNames
  split
  · rename_i same
    cases same
    exact if_neg other
  · rename_i same
    cases same
    exact if_neg other
  · rfl

theorem moreNames_unmarked {between : Punctuator} {trees : List (Tree Token)}
    (unmarked : Unmarked trees) : moreNames between trees = some ([], trees) := by
  unfold moreNames
  split
  · exact absurd rfl (unmarked _ _)
  · exact absurd rfl (unmarked _ _)
  · rfl

theorem settles_moreNames (between : Punctuator) : Settles (moreNames between) := by
  intro trees names rest more opens read
  fun_induction moreNames between trees generalizing names rest with
  | case1 text later inductionHypothesis =>
      obtain ⟨⟨others, left⟩, readOthers, same⟩ := Option.map_eq_some_iff.mp read
      obtain ⟨rfl, rfl⟩ := Prod.mk.inj same
      simp only [List.cons_append, moreNames, if_true, inductionHypothesis _ _ readOthers,
        Option.map_some]
  | case2 punctuator text later other =>
      obtain ⟨rfl, rfl⟩ := Prod.mk.inj (Option.some.inj read)
      exact moreNames_other other _
  | case3 => contradiction
  | case4 punctuator later _ other =>
      obtain ⟨rfl, rfl⟩ := Prod.mk.inj (Option.some.inj read)
      exact moreNames_other other _
  | case5 trees _ unmarked =>
      obtain ⟨rfl, rfl⟩ := Prod.mk.inj (Option.some.inj read)
      exact moreNames_unmarked (opens.unmarked_append unmarked)

theorem settles_separated (between : Punctuator) : Settles (separated between) := by
  unfold separated
  refine (settles_mark? between).bind fun _ => ?_
  refine settles_name.bind fun _ => ?_
  refine (settles_moreNames between).bind fun _ => ?_
  exact .pure _

theorem directives_bare (name : String) {rest : List (Tree Token)}
    (noArguments : ∀ members after, rest ≠ .group .round members :: after) :
    directives (.mark .atSign :: .name name :: rest) =
      (directives rest).map fun (others, left) => (⟨name, []⟩ :: others, left) := by
  rw [directives]
  exact noArguments

theorem directives_other {trees : List (Tree Token)}
    (other : ∀ after, trees ≠ .mark .atSign :: after) : directives trees = some ([], trees) := by
  rw [directives.eq_def]
  split
  · exact absurd rfl (other _)
  · exact absurd rfl (other _)
  · exact absurd rfl (other _)
  · rfl

theorem settles_directives : Settles directives := by
  intro trees applied rest more opens read
  fun_induction directives trees generalizing applied rest with
  | case1 name later argument arguments literals others left readOthers readArguments
      inductionHypothesis =>
      simp only [readArguments, readOthers, Option.some.injEq, Prod.mk.injEq] at read
      obtain ⟨rfl, rfl⟩ := read
      simp only [List.cons_append, directives, readArguments, inductionHypothesis _ _ readOthers]
  | case2 name members later unread =>
      split at read
      · exact (unread _ _ _ _ _ rfl ‹_› ‹_›).elim
      · contradiction
  | case3 name later bare inductionHypothesis =>
      obtain ⟨⟨others, left⟩, readOthers, same⟩ := Option.map_eq_some_iff.mp read
      obtain ⟨rfl, rfl⟩ := Prod.mk.inj same
      have noArguments : ∀ members after, later ++ more ≠ .group .round members :: after :=
        fun members => opens.append_ne (not_opensDefinition_group .round members) (bare members)
      rw [List.cons_append, List.cons_append, directives_bare name noArguments,
        inductionHypothesis _ _ readOthers, Option.map_some]
  | case4 => contradiction
  | case5 trees _ _ other =>
      obtain ⟨rfl, rfl⟩ := Prod.mk.inj (Option.some.inj read)
      exact directives_other (opens.append_ne (not_opensDefinition_mark .atSign) other)

theorem settles_interfaces : Settles interfaces := by
  unfold interfaces
  refine (settles_word? (by decide)).bind fun present => ?_
  split
  · exact settles_separated .ampersand
  · exact .pure []

theorem settles_members : Settles members := by
  unfold members
  refine (settles_mark? .equals).bind fun present => ?_
  split
  · exact settles_separated .bar
  · exact .pure []

theorem settles_typeDeclaration (kind : String) : Settles (typeDeclaration kind) := by
  unfold typeDeclaration
  refine settles_name.bind fun _ => ?_
  split
  · refine settles_directives.bind fun _ => ?_
    exact .pure _
  · refine settles_interfaces.bind fun _ => ?_
    refine settles_directives.bind fun _ => ?_
    refine (settles_group? .curly field).bind fun _ => ?_
    exact .pure _
  · refine settles_interfaces.bind fun _ => ?_
    refine settles_directives.bind fun _ => ?_
    refine (settles_group? .curly field).bind fun _ => ?_
    exact .pure _
  · refine settles_directives.bind fun _ => ?_
    refine settles_members.bind fun _ => ?_
    exact .pure _
  · refine settles_directives.bind fun _ => ?_
    refine (settles_group? .curly enumValue).bind fun _ => ?_
    exact .pure _
  · refine settles_directives.bind fun _ => ?_
    refine (settles_group? .curly inputValue).bind fun _ => ?_
    exact .pure _
  · exact .failure

theorem settles_directiveDefinition : Settles directiveDefinition := by
  unfold directiveDefinition
  refine (settles_mark .atSign).bind fun _ => ?_
  refine settles_name.bind fun _ => ?_
  refine (settles_group? .round inputValue).bind fun _ => ?_
  refine (settles_word? (by decide)).bind fun _ => ?_
  refine (settles_word "on").bind fun _ => ?_
  refine (settles_separated .bar).bind fun _ => ?_
  split
  · exact .pure _
  · exact .failure

theorem settles_extension : Settles extension := by
  unfold extension
  refine settles_name.bind fun _ => ?_
  split
  · refine settles_directives.bind fun _ => ?_
    refine (settles_group? .curly root).bind fun _ => ?_
    refine (settles_guard _).bind fun _ => ?_
    exact .pure _
  · refine (settles_typeDeclaration _).bind fun _ => ?_
    refine (settles_guard _).bind fun _ => ?_
    exact .pure _

theorem description_append {trees rest : List (Tree Token)} {text : Option String}
    (nonempty : trees ≠ []) (read : description trees = some (text, rest))
    (more : List (Tree Token)) : description (trees ++ more) = some (text, rest ++ more) := by
  unfold description at read
  split at read
  · obtain ⟨rfl, rfl⟩ := Prod.mk.inj (Option.some.inj read)
    rfl
  · rename_i noText
    obtain ⟨rfl, rfl⟩ := Prod.mk.inj (Option.some.inj read)
    obtain ⟨tree, trees, rfl⟩ := List.exists_cons_of_ne_nil nonempty
    unfold description
    split
    · rename_i same
      exact absurd (by rw [(List.cons.inj same).1]) (noText _ trees)
    · rfl

theorem settles_definition : Settles definition := by
  intro trees value rest more opens read
  have nonempty : trees ≠ [] := by
    rintro rfl
    contradiction
  unfold definition at read ⊢
  obtain ⟨⟨text, left⟩, readText, readRest⟩ := Option.bind_eq_some_iff.mp read
  rw [bind_apply, description_append nonempty readText]
  refine Settles.bind settles_name (fun _ => ?_) left value rest more opens readRest
  split
  · refine settles_directives.bind fun _ => ?_
    refine (settles_group .curly root).bind fun _ => ?_
    exact .pure _
  · refine settles_directiveDefinition.bind fun _ => ?_
    exact .pure _
  · refine (settles_guard _).bind fun _ => ?_
    exact settles_extension
  · refine (settles_typeDeclaration _).bind fun _ => ?_
    exact .pure _

/-! A definition starts with its description or with its word. -/

theorem mem_definitionWords_of_typeDeclaration {kind : String} {trees rest : List (Tree Token)}
    {declaration : TypeDeclaration} (read : typeDeclaration kind trees = some (declaration, rest)) :
    kind ∈ definitionWords := by
  obtain ⟨⟨name, left⟩, _, read⟩ := Option.bind_eq_some_iff.mp read
  dsimp only at read
  split at read
  case h_7 => contradiction
  all_goals decide

theorem opens_of_definition {trees rest : List (Tree Token)} {value : Definition}
    (read : definition trees = some (value, rest)) : OpensDefinition trees := by
  obtain ⟨⟨text, left⟩, readText, readRest⟩ := Option.bind_eq_some_iff.mp read
  unfold description at readText
  split at readText
  · exact .description _ _
  · obtain ⟨rfl, rfl⟩ := Prod.mk.inj (Option.some.inj readText)
    obtain ⟨⟨word, after⟩, readWord, readBody⟩ := Option.bind_eq_some_iff.mp readRest
    unfold name at readWord
    split at readWord
    · obtain ⟨rfl, rfl⟩ := Prod.mk.inj (Option.some.inj readWord)
      refine .word ?_ _
      dsimp only at readBody
      split at readBody
      · decide
      · decide
      · decide
      · obtain ⟨_, readDeclaration, _⟩ := Option.bind_eq_some_iff.mp readBody
        exact mem_definitionWords_of_typeDeclaration readDeclaration
    · contradiction

theorem opens_of_each {trees : List (Tree Token)} {document : Document}
    (read : each definition trees = some document) : OpensDefinition trees := by
  cases trees with
  | nil => exact .nil
  | cons tree more =>
      rw [each] at read
      split at read
      · contradiction
      · rename_i found
        exact opens_of_definition found

theorem each_append {trees more : List (Tree Token)} {document others : Document}
    (read : each definition trees = some document)
    (readOthers : each definition more = some others) :
    each definition (trees ++ more) = some (document ++ others) := by
  fun_induction each definition trees generalizing document with
  | case1 =>
      obtain rfl := Option.some.inj read
      exact readOthers
  | case2 => contradiction
  | case3 tree trees value rest found shorter inductionHypothesis =>
      obtain ⟨later, readLater, rfl⟩ := Option.map_eq_some_iff.mp read
      have settled := settles_definition _ _ _ more (opens_of_each readOthers) found
      rw [List.cons_append] at settled ⊢
      rw [← eachOf_eq_each (List.cons_ne_nil _ _), eachOf_cons settled (by simp [shorter]),
        inductionHypothesis readLater]
      rfl
  | case4 => contradiction

end Reader

namespace Document

/-- One document above another is the document of both. -/
theorem read?_line {first second : String} {document others : Document}
    (read : read? first = some document) (readOthers : read? second = some others) :
    read? (first ++ "\n" ++ second) = some (document ++ others) := by
  obtain ⟨trees, grouped, each⟩ := Option.bind_eq_some_iff.mp read
  obtain ⟨more, moreGrouped, eachOther⟩ := Option.bind_eq_some_iff.mp readOthers
  have nonempty : trees ≠ [] := by
    rintro rfl
    contradiction
  have moreNonempty : more ≠ [] := by
    rintro rfl
    contradiction
  rw [Reader.eachOf_eq_each nonempty] at each
  rw [Reader.eachOf_eq_each moreNonempty] at eachOther
  rw [read?, Token.trees?_line grouped moreGrouped, Option.bind_some,
    Reader.eachOf_eq_each (by simp [nonempty]), Reader.each_append each eachOther]

end Document

/-- Reads a text that holds one definition and nothing else. -/
def Definition.read? (text : String) : Option Definition :=
  match Document.read? text with
  | some [definition] => some definition
  | _ => none

theorem Definition.read?_eq_some_iff {text : String} {definition : Definition} :
    read? text = some definition ↔ Document.read? text = some [definition] := by
  unfold read?
  split
  · rename_i found
    simp [found]
  · rename_i noSingle
    constructor
    · intro impossible
      contradiction
    · intro found
      exact absurd found (noSingle definition)

namespace Document

/-- The definitions that texts hold, in their order. -/
def ofTexts (texts : List String) : Document :=
  texts.filterMap Definition.read?

/-- Texts that hold one definition each, on lines of their own, are read as these definitions. -/
theorem read?_intercalate {texts : List String} (nonempty : texts ≠ [])
    (each : ∀ text ∈ texts, (Definition.read? text).isSome = true) :
    read? ("\n".intercalate texts) = some (ofTexts texts) := by
  induction texts with
  | nil => exact absurd rfl nonempty
  | cons text rest inductionHypothesis =>
      obtain ⟨first, others⟩ := List.forall_mem_cons.mp each
      obtain ⟨definition, found⟩ := Option.isSome_iff_exists.mp first
      have read := Definition.read?_eq_some_iff.mp found
      rw [ofTexts, List.filterMap_cons_some found]
      cases rest with
      | nil =>
          rw [String.intercalate_singleton, read]
          rfl
      | cons next later =>
          rw [String.intercalate_cons_cons,
            read?_line read (inductionHypothesis (List.cons_ne_nil next later) others)]
          rfl

end Document

end Toolsmith.GraphQL

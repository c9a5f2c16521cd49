import Toolsmith.GraphQL.Document
import Toolsmith.Proofs.GraphQL.Literal

/-!
Executable documents: operations and fragments, as the grammar of GraphQL has them. They are read
from the trees of a text's lexemes, so that a number with a fraction or an exponent is kept as it is
written. What the grammar leaves out when there is none of it, such as the parentheses around no
arguments, is an empty list here.
-/

set_option autoImplicit false

namespace Toolsmith.GraphQL.Executable

inductive Value where
  | var (name : String)
  | int (value : Int)
  | float (text : List Char)
  | str (value : String)
  | bool (value : Bool)
  | null
  | enum (name : String)
  | list (items : List Value)
  | object (fields : List (String × Value))
deriving Repr

structure Directive where
  name : String
  arguments : List (String × Value)
deriving Repr

inductive Selection where
  | field (aliasName : Option String) (name : String) (arguments : List (String × Value))
      (directives : List Directive) (selections : List Selection)
  | spread (fragment : String) (directives : List Directive)
  | inline (type : Option String) (directives : List Directive) (selections : List Selection)
deriving Repr

structure VariableDefinition where
  name : String
  type : TypeRef
  default : Option Literal
  directives : List Directive
deriving Repr

inductive Definition where
  | shorthand (selections : List Selection)
  | operation (keyword : String) (name : Option String)
      (variableDefinitions : List VariableDefinition) (directives : List Directive)
      (selections : List Selection)
  | fragment (name : String) (type : String) (directives : List Directive)
      (selections : List Selection)
deriving Repr

/-! Values and arguments. -/

def Value.ofName : String → Value
  | "null" => .null
  | "true" => .bool true
  | "false" => .bool false
  | name => .enum name

mutual

def value? : Tree Lexeme → Option Value
  | .leaf ⟨.int value, _⟩ => some (.int value)
  | .leaf ⟨.float _, text⟩ => some (.float text)
  | .leaf ⟨.str value, _⟩ => some (.str value)
  | .leaf ⟨.name name, _⟩ => some (.ofName name)
  | .leaf ⟨.mark _, _⟩ => none
  | .group .square members => (items? members).map .list
  | .group .curly members => (fields? members).map .object
  | .group .round _ => none

def items? : List (Tree Lexeme) → Option (List Value)
  | [] => some []
  | .leaf ⟨.mark .dollar, _⟩ :: .leaf ⟨.name name, _⟩ :: rest => do
    let values ← items? rest
    return .var name :: values
  | item :: rest => do
    let value ← value? item
    let values ← items? rest
    return value :: values

/-- Fields, or arguments: a name, a colon and a value each. -/
def fields? : List (Tree Lexeme) → Option (List (String × Value))
  | [] => some []
  | .leaf ⟨.name name, _⟩ :: .leaf ⟨.mark .colon, _⟩ :: .leaf ⟨.mark .dollar, _⟩ ::
      .leaf ⟨.name held, _⟩ :: rest => do
    let fields ← fields? rest
    return (name, .var held) :: fields
  | .leaf ⟨.name name, _⟩ :: .leaf ⟨.mark .colon, _⟩ :: item :: rest => do
    let value ← value? item
    let fields ← fields? rest
    return (name, value) :: fields
  | _ => none

end

/-- Arguments in front, if there are any; there is at least one between parentheses. -/
def arguments? : List (Tree Lexeme) → Option (List (String × Value) × List (Tree Lexeme))
  | .group .round [] :: _ => none
  | .group .round members :: rest => (fields? members).map (·, rest)
  | trees => some ([], trees)

def directives? : List (Tree Lexeme) → Option (List Directive × List (Tree Lexeme))
  | .leaf ⟨.mark .atSign, _⟩ :: .leaf ⟨.name _, _⟩ :: .group .round [] :: _ => none
  | .leaf ⟨.mark .atSign, _⟩ :: .leaf ⟨.name name, _⟩ :: .group .round members :: rest => do
    let arguments ← fields? members
    let (others, left) ← directives? rest
    return (⟨name, arguments⟩ :: others, left)
  | .leaf ⟨.mark .atSign, _⟩ :: .leaf ⟨.name name, _⟩ :: rest => do
    let (others, left) ← directives? rest
    return (⟨name, []⟩ :: others, left)
  | .leaf ⟨.mark .atSign, _⟩ :: _ => none
  | trees => some ([], trees)

/-! Selections. -/

/-- What stands of a selection before its braces. -/
inductive Head where
  | field (aliasName : Option String) (name : String) (arguments : List (String × Value))
      (directives : List Directive)
  | spread (fragment : String) (directives : List Directive)
  | inline (type : Option String) (directives : List Directive)

/-- A field may have braces, a fragment that is spread has none, and an inline fragment needs
them. -/
def Head.selection? (head : Head) (selections : List Selection) : Option Selection :=
  match head with
  | .field aliasName name arguments directives =>
    some (.field aliasName name arguments directives selections)
  | .spread fragment directives =>
    if selections.isEmpty then some (.spread fragment directives) else none
  | .inline type directives =>
    if selections.isEmpty then none else some (.inline type directives selections)

def fieldHead? (aliasName : Option String) (name : String) (trees : List (Tree Lexeme)) :
    Option (Head × List (Tree Lexeme)) := do
  let (arguments, rest) ← arguments? trees
  let (directives, rest) ← directives? rest
  return (.field aliasName name arguments directives, rest)

def head? : List (Tree Lexeme) → Option (Head × List (Tree Lexeme))
  | .leaf ⟨.mark .spread, _⟩ :: .leaf ⟨.name "on", _⟩ :: .leaf ⟨.name type, _⟩ :: rest =>
    (directives? rest).map fun (directives, left) => (.inline (some type) directives, left)
  | .leaf ⟨.mark .spread, _⟩ :: .leaf ⟨.name "on", _⟩ :: _ => none
  | .leaf ⟨.mark .spread, _⟩ :: .leaf ⟨.name fragment, _⟩ :: rest =>
    (directives? rest).map fun (directives, left) => (.spread fragment directives, left)
  | .leaf ⟨.mark .spread, _⟩ :: rest =>
    (directives? rest).map fun (directives, left) => (.inline none directives, left)
  | .leaf ⟨.name aliasName, _⟩ :: .leaf ⟨.mark .colon, _⟩ :: .leaf ⟨.name name, _⟩ :: rest =>
    fieldHead? (some aliasName) name rest
  | .leaf ⟨.name name, _⟩ :: rest => fieldHead? none name rest
  | _ => none

theorem suffix_of_arguments? {trees rest : List (Tree Lexeme)} {arguments : List (String × Value)}
    (read : arguments? trees = some (arguments, rest)) : rest <:+ trees := by
  unfold arguments? at read
  split at read
  · contradiction
  · simp only [Option.map_eq_some_iff, Prod.mk.injEq] at read
    obtain ⟨_, _, _, rfl⟩ := read
    exact List.suffix_cons _ _
  · obtain ⟨_, rfl⟩ := Prod.mk.inj (Option.some.inj read)
    exact List.suffix_refl _

theorem suffix_of_directives? {trees rest : List (Tree Lexeme)} {directives : List Directive}
    (read : directives? trees = some (directives, rest)) : rest <:+ trees := by
  fun_induction directives? trees generalizing directives rest with
  | case1 => contradiction
  | case2 _ name _ members later _ inductionHypothesis =>
      simp only [Option.bind_eq_bind, Option.bind_eq_some_iff] at read
      obtain ⟨arguments, _, ⟨others, left⟩, readOthers, collected⟩ := read
      obtain ⟨_, rfl⟩ := Prod.mk.inj (Option.some.inj collected)
      exact (inductionHypothesis readOthers).trans (List.suffix_append [_, _, _] later)
  | case3 _ name _ later _ _ inductionHypothesis =>
      simp only [Option.bind_eq_bind, Option.bind_eq_some_iff] at read
      obtain ⟨⟨others, left⟩, readOthers, collected⟩ := read
      obtain ⟨_, rfl⟩ := Prod.mk.inj (Option.some.inj collected)
      exact (inductionHypothesis readOthers).trans (List.suffix_append [_, _] later)
  | case4 => contradiction
  | case5 =>
      obtain ⟨_, rfl⟩ := Prod.mk.inj (Option.some.inj read)
      exact List.suffix_refl _

theorem suffix_of_fieldHead? {aliasName : Option String} {name : String}
    {trees rest : List (Tree Lexeme)} {head : Head}
    (read : fieldHead? aliasName name trees = some (head, rest)) : rest <:+ trees := by
  simp only [fieldHead?, Option.bind_eq_bind, Option.bind_eq_some_iff] at read
  obtain ⟨⟨arguments, afterArguments⟩, readArguments, ⟨directives, left⟩, readDirectives,
    collected⟩ := read
  obtain ⟨_, rfl⟩ := Prod.mk.inj (Option.some.inj collected)
  exact (suffix_of_directives? readDirectives).trans (suffix_of_arguments? readArguments)

/-- A selection starts with at least one tree of its own. -/
theorem suffix_of_head? {tree : Tree Lexeme} {trees rest : List (Tree Lexeme)} {head : Head}
    (read : head? (tree :: trees) = some (head, rest)) : rest <:+ trees := by
  unfold head? at read
  split at read
  · rename_i same
    obtain ⟨_, rfl⟩ := List.cons.inj same
    simp only [Option.map_eq_some_iff, Prod.mk.injEq] at read
    obtain ⟨⟨_, left⟩, found, _, rfl⟩ := read
    exact (suffix_of_directives? found).trans (List.suffix_append [_, _] _)
  · contradiction
  · rename_i same
    obtain ⟨_, rfl⟩ := List.cons.inj same
    simp only [Option.map_eq_some_iff, Prod.mk.injEq] at read
    obtain ⟨⟨_, left⟩, found, _, rfl⟩ := read
    exact (suffix_of_directives? found).trans (List.suffix_append [_] _)
  · rename_i same
    obtain ⟨_, rfl⟩ := List.cons.inj same
    simp only [Option.map_eq_some_iff, Prod.mk.injEq] at read
    obtain ⟨⟨_, left⟩, found, _, rfl⟩ := read
    exact suffix_of_directives? found
  · rename_i same
    obtain ⟨_, rfl⟩ := List.cons.inj same
    exact (suffix_of_fieldHead? read).trans (List.suffix_append [_, _] _)
  · rename_i same
    obtain ⟨_, rfl⟩ := List.cons.inj same
    exact suffix_of_fieldHead? read
  · contradiction

theorem sizeOf_le_of_suffix {trees rest : List (Tree Lexeme)} (suffix : rest <:+ trees) :
    sizeOf rest ≤ sizeOf trees := by
  obtain ⟨taken, rfl⟩ := suffix
  induction taken with
  | nil => exact Nat.le_refl _
  | cons tree taken inductionHypothesis =>
      rw [List.cons_append, List.cons.sizeOf_spec]
      omega

/-- The selections between two braces, read one after the other. -/
def selections? (trees : List (Tree Lexeme)) : Option (List Selection) :=
  match trees with
  | [] => some []
  | tree :: more =>
    match _ : head? (tree :: more) with
    | none => none
    | some (_, .group .curly [] :: _) => none
    | some (head, .group .curly members :: rest) => do
      let inside ← selections? members
      let selection ← head.selection? inside
      let others ← selections? rest
      return selection :: others
    | some (head, rest) => do
      let selection ← head.selection? []
      let others ← selections? rest
      return selection :: others
termination_by sizeOf trees
decreasing_by
  all_goals
    rename_i read
    have shorter := sizeOf_le_of_suffix (suffix_of_head? read)
    simp only [List.cons.sizeOf_spec, Tree.group.sizeOf_spec] at shorter ⊢
    omega

theorem selections?_of_braces {tree : Tree Lexeme} {more members rest : List (Tree Lexeme)}
    {head : Head} (read : head? (tree :: more) = some (head, .group .curly members :: rest))
    (nonempty : members ≠ []) :
    selections? (tree :: more) = do
      let inside ← selections? members
      let selection ← head.selection? inside
      let others ← selections? rest
      return selection :: others := by
  rw [selections?]
  split <;> simp_all

theorem selections?_of_noBraces {tree : Tree Lexeme} {more rest : List (Tree Lexeme)} {head : Head}
    (read : head? (tree :: more) = some (head, rest))
    (noBraces : ∀ members after, rest ≠ .group .curly members :: after) :
    selections? (tree :: more) = do
      let selection ← head.selection? []
      let others ← selections? rest
      return selection :: others := by
  have other : ∀ {first : Head} {members after : List (Tree Lexeme)},
      head? (tree :: more) ≠ some (first, .group .curly members :: after) := by
    intro first members after found
    rw [read, Option.some.injEq, Prod.mk.injEq] at found
    exact noBraces members after found.2
  rw [selections?]
  split
  · simp_all
  · exact absurd ‹_› other
  · exact absurd ‹_› other
  · simp_all

/-! Documents. -/

/-- The selections between braces; there is at least one. -/
def selectionSet? : List (Tree Lexeme) → Option (List Selection × List (Tree Lexeme))
  | .group .curly [] :: _ => none
  | .group .curly members :: rest => (selections? members).map (·, rest)
  | _ => none

def type? : List (Tree Lexeme) → Option (TypeRef × List (Tree Lexeme))
  | tree :: .leaf ⟨.mark .bang, _⟩ :: rest =>
    (TypeRef.ofTree? true (tree.map Lexeme.token)).map (·, rest)
  | tree :: rest => (TypeRef.ofTree? false (tree.map Lexeme.token)).map (·, rest)
  | [] => none

def default? : List (Tree Lexeme) → Option (Option Literal × List (Tree Lexeme))
  | .leaf ⟨.mark .equals, _⟩ :: value :: rest =>
    (Literal.ofTree? (value.map Lexeme.token)).map (some ·, rest)
  | .leaf ⟨.mark .equals, _⟩ :: _ => none
  | trees => some (none, trees)

def variableDefinition? :
    List (Tree Lexeme) → Option (VariableDefinition × List (Tree Lexeme))
  | .leaf ⟨.mark .dollar, _⟩ :: .leaf ⟨.name name, _⟩ :: .leaf ⟨.mark .colon, _⟩ :: rest => do
    let (type, rest) ← type? rest
    let (default, rest) ← default? rest
    let (directives, rest) ← directives? rest
    return ({ name, type, default, directives }, rest)
  | _ => none

/-- Reads one item after the other until nothing is left. An item takes at least one tree. -/
def each {α : Type} (item : List (Tree Lexeme) → Option (α × List (Tree Lexeme)))
    (trees : List (Tree Lexeme)) : Option (List α) :=
  match trees with
  | [] => some []
  | tree :: more => do
    let (value, rest) ← item (tree :: more)
    if rest.length ≤ more.length then
      let others ← each item rest
      return value :: others
    else none
termination_by trees.length

/-- Variables in front, if there are any; there is at least one between parentheses. -/
def variableDefinitions? :
    List (Tree Lexeme) → Option (List VariableDefinition × List (Tree Lexeme))
  | .group .round [] :: _ => none
  | .group .round members :: rest => (each variableDefinition? members).map (·, rest)
  | trees => some ([], trees)

def operationName : List (Tree Lexeme) → Option String × List (Tree Lexeme)
  | .leaf ⟨.name name, _⟩ :: rest => (some name, rest)
  | trees => (none, trees)

def definition? : List (Tree Lexeme) → Option (Definition × List (Tree Lexeme))
  | .leaf ⟨.name "fragment", _⟩ :: .leaf ⟨.name name, _⟩ :: .leaf ⟨.name "on", _⟩ ::
      .leaf ⟨.name type, _⟩ :: rest => do
    guard (name ≠ "on")
    let (directives, rest) ← directives? rest
    let (selections, rest) ← selectionSet? rest
    return (.fragment name type directives selections, rest)
  | .leaf ⟨.name keyword, _⟩ :: rest => do
    guard (keyword ∈ ["query", "mutation", "subscription"])
    let (name, rest) := operationName rest
    let (variableDefinitions, rest) ← variableDefinitions? rest
    let (directives, rest) ← directives? rest
    let (selections, rest) ← selectionSet? rest
    return (.operation keyword name variableDefinitions directives selections, rest)
  | trees => (selectionSet? trees).map fun (selections, rest) => (.shorthand selections, rest)

/-- The trees of the lexemes of a text. -/
def trees? (text : String) : Option (List (Tree Lexeme)) :=
  (Token.lexemes? text.toList).bind Tree.ofPieces?

/-- The definitions of an executable document; there is at least one. -/
def read? (text : String) : Option (List Definition) :=
  match trees? text with
  | none => none
  | some [] => none
  | some trees => each definition? trees

/-- The value of a text that is nothing but a value without variables. -/
def readValue? (text : String) : Option Value :=
  match trees? text with
  | some [tree] => value? tree
  | _ => none

/-- The arguments of a text that is nothing but arguments between parentheses, or blank. -/
def readArguments? (text : String) : Option (List (String × Value)) :=
  match (trees? text).bind arguments? with
  | some (arguments, []) => some arguments
  | _ => none

/-- The selections of a text that is nothing but selections between braces. -/
def readSelectionSet? (text : String) : Option (List Selection) :=
  match (trees? text).bind selectionSet? with
  | some (selections, []) => some selections
  | _ => none

end Toolsmith.GraphQL.Executable

import Toolsmith.GraphQL.Document
import Toolsmith.GraphQL.Literal.Reader

/-!
Reading documents of the schema definition language. What stands between two brackets is one tree,
so a list in brackets is read from the members of its group up to their end.
-/

set_option autoImplicit false

namespace Toolsmith.GraphQL

/-- Reads from the front of the trees and hands on what is left. -/
abbrev Reader := StateT (List (Tree Token)) Option

namespace Reader

variable {α : Type}

def name : Reader String
  | .name text :: rest => some (text, rest)
  | _ => none

def word (expected : String) : Reader Unit
  | .name text :: rest => if text = expected then some ((), rest) else none
  | _ => none

def mark (expected : Punctuator) : Reader Unit
  | .mark punctuator :: rest => if punctuator = expected then some ((), rest) else none
  | _ => none

/-- Whether a word stands in front; it is passed over if so. -/
def word? (expected : String) : Reader Bool
  | .name text :: rest =>
    if text = expected then some (true, rest) else some (false, .name text :: rest)
  | trees => some (false, trees)

def mark? (expected : Punctuator) : Reader Bool
  | .mark punctuator :: rest =>
    if punctuator = expected then some (true, rest) else some (false, .mark punctuator :: rest)
  | trees => some (false, trees)

/-- Reads one item after the other until nothing is left. An item takes at least one tree. -/
def each (item : Reader α) (trees : List (Tree Token)) : Option (List α) :=
  match trees with
  | [] => some []
  | tree :: more =>
    match item (tree :: more) with
    | none => none
    | some (value, rest) =>
      if rest.length ≤ more.length then (each item rest).map (value :: ·) else none
termination_by trees.length
decreasing_by
  exact Nat.lt_succ_of_le (by assumption)

/-- At least one item. -/
def eachOf (item : Reader α) : List (Tree Token) → Option (List α)
  | [] => none
  | trees => each item trees

/-- A group with at least one item in it, or none if there is no such group. -/
def group? (bracket : Bracket) (item : Reader α) : Reader (List α)
  | .group opened members :: rest =>
    if opened = bracket then (eachOf item members).map (·, rest)
    else some ([], .group opened members :: rest)
  | trees => some ([], trees)

def group (bracket : Bracket) (item : Reader α) : Reader (List α)
  | .group opened members :: rest =>
    if opened = bracket then (eachOf item members).map (·, rest) else none
  | _ => none

/-- The names that follow a first one, each after a mark. -/
def moreNames (between : Punctuator) : Reader (List String)
  | .mark punctuator :: .name text :: rest =>
    if punctuator = between then
      (moreNames between rest).map fun (names, left) => (text :: names, left)
    else some ([], .mark punctuator :: .name text :: rest)
  | .mark punctuator :: rest =>
    if punctuator = between then none else some ([], .mark punctuator :: rest)
  | trees => some ([], trees)

/-- At least one name, with a mark between two names and perhaps one before the first. -/
def separated (between : Punctuator) : Reader (List String) := do
  let _ ← mark? between
  let first ← name
  let rest ← moreNames between
  return first :: rest

def description : Reader (Option String)
  | .leaf (.str text) :: rest => some (some text, rest)
  | trees => some (none, trees)

def directives : Reader (List Directive)
  | .mark .atSign :: .name name :: .group .round members :: rest =>
    match members, Literal.readFields? members, directives rest with
    | _ :: _, some arguments, some (others, left) => some (⟨name, arguments⟩ :: others, left)
    | _, _, _ => none
  | .mark .atSign :: .name name :: rest =>
    (directives rest).map fun (others, left) => (⟨name, []⟩ :: others, left)
  | .mark .atSign :: _ => none
  | trees => some ([], trees)

def default : Reader (Option Literal)
  | .mark .equals :: value :: rest => (Literal.read? value).map (some ·, rest)
  | .mark .equals :: _ => none
  | trees => some (none, trees)

def inputValue : Reader InputValueDefinition := do
  let description ← description
  let name ← name
  mark .colon
  let type ← TypeRef.read
  let default ← default
  let directives ← directives
  return { description, name, type, default, directives }

def field : Reader FieldDefinition := do
  let description ← description
  let name ← name
  let arguments ← group? .round inputValue
  mark .colon
  let type ← TypeRef.read
  let directives ← directives
  return { description, name, arguments, type, directives }

/-- Names that are literals of other kinds are no enum values. -/
def enumValue : Reader EnumValueDefinition := do
  let description ← description
  let name ← name
  guard (name ≠ "true" ∧ name ≠ "false" ∧ name ≠ "null")
  let directives ← directives
  return { description, name, directives }

def interfaces : Reader (List String) := do
  if ← word? "implements" then separated .ampersand else return []

def members : Reader (List String) := do
  if ← mark? .equals then separated .bar else return []

/-- What follows the word that tells the kind of a type. -/
def typeDeclaration (kind : String) : Reader TypeDeclaration := do
  let name ← name
  match kind with
  | "scalar" =>
    let directives ← directives
    return { name, directives, body := .scalar }
  | "type" =>
    let interfaces ← interfaces
    let directives ← directives
    let fields ← group? .curly field
    return { name, directives, body := .object interfaces fields }
  | "interface" =>
    let interfaces ← interfaces
    let directives ← directives
    let fields ← group? .curly field
    return { name, directives, body := .interface interfaces fields }
  | "union" =>
    let directives ← directives
    let members ← members
    return { name, directives, body := .union members }
  | "enum" =>
    let directives ← directives
    let values ← group? .curly enumValue
    return { name, directives, body := .enum values }
  | "input" =>
    let directives ← directives
    let fields ← group? .curly inputValue
    return { name, directives, body := .input fields }
  | _ => failure

def root : Reader (RootOperation × String) := do
  let operation ← name
  mark .colon
  let type ← name
  match RootOperation.ofName? operation with
  | some operation => return (operation, type)
  | none => failure

def directiveDefinition : Reader DirectiveDefinition := do
  mark .atSign
  let name ← name
  let arguments ← group? .round inputValue
  let repeatable ← word? "repeatable"
  word "on"
  let places ← separated .bar
  match places.mapM DirectiveLocation.ofName? with
  | some locations => return { name, arguments, repeatable, locations }
  | none => failure

/-- An extension declares something. -/
def extension : Reader Definition := do
  match ← name with
  | "schema" =>
    let directives ← directives
    let roots ← group? .curly root
    guard (directives.isEmpty = false ∨ roots.isEmpty = false)
    return .extendSchema { directives, roots }
  | kind =>
    let declaration ← typeDeclaration kind
    guard (declaration.directives.isEmpty = false ∨ declaration.body.isEmpty = false)
    return .extendType declaration

def definition : Reader Definition := do
  let description ← description
  match ← name with
  | "schema" =>
    let directives ← directives
    let roots ← group .curly root
    return .schema { directives, roots }
  | "directive" =>
    let definition ← directiveDefinition
    return .directive definition
  | "extend" =>
    guard description.isNone
    extension
  | kind =>
    let declaration ← typeDeclaration kind
    return .type description declaration

end Reader

/-- Reads a text that holds at least one definition and nothing else. -/
def Document.read? (text : String) : Option Document :=
  (Token.trees? text).bind (Reader.eachOf Reader.definition)

end Toolsmith.GraphQL

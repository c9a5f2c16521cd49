import Toolsmith.Text.Quoted

/-!
Names of tools. A tool is named for the kind of its operation and its root field, with an underscore
between them. No kind's label holds an underscore, so the first one parts the two again.
-/

set_option autoImplicit false

namespace Toolsmith

inductive OperationKind where
  | query
  | mutation
deriving DecidableEq, Repr

namespace OperationKind

def all : List OperationKind := [.query, .mutation]

/-- The word that starts an operation. -/
def keyword : OperationKind → String
  | .query => "query"
  | .mutation => "mutation"

/-- What the names of the kind's tools start with. -/
def label : OperationKind → String
  | .query => "query-tool"
  | .mutation => "mutation-tool"

def ofLabel? (label : String) : Option OperationKind :=
  all.find? fun kind => kind.label = label

end OperationKind

/-- A tool name does not lead to a root type. Without an underscore it has no label at all. -/
structure UnknownKind where
  toolName : String
  label : Option String
deriving DecidableEq, Repr

def UnknownKind.message (error : UnknownKind) : String :=
  match error.label with
  | none => "Tool name " ++ Text.quoted error.toolName ++ " has no operation prefix"
  | some label =>
    "Unknown operation kind " ++ Text.quoted label ++ " in tool " ++ Text.quoted error.toolName

structure ToolName where
  kind : OperationKind
  field : String
deriving DecidableEq, Repr

namespace ToolName

def delimiter : Char := '_'

def text (name : ToolName) : String :=
  String.ofList (name.kind.label.toList ++ delimiter :: name.field.toList)

/-- The parts of a text before and after the first delimiter. -/
def split? (text : String) : Option (String × String) :=
  let cs := text.toList
  match cs.dropWhile (· ≠ delimiter) with
  | [] => none
  | _ :: after => some (String.ofList (cs.takeWhile (· ≠ delimiter)), String.ofList after)

def read (text : String) : Except UnknownKind ToolName :=
  match split? text with
  | none => .error ⟨text, none⟩
  | some (label, field) =>
    match OperationKind.ofLabel? label with
    | none => .error ⟨text, some label⟩
    | some kind => .ok ⟨kind, field⟩

end ToolName

end Toolsmith

import Toolsmith.Files
import Toolsmith.GraphQL.Schema.OfDocument

/-!
Schemas from files. Without a path the schema is read that lies beside the program.
-/

set_option autoImplicit false

namespace Toolsmith

inductive LoadError where
  | unreadable (path : Path)
  /-- The path holds NUL, so it can lead to no file. -/
  | invalidPath (path : Path)
  /-- The file can be read, but not as a text. -/
  | undecodable (path : Path)
  | schema (error : GraphQL.SchemaError)
deriving DecidableEq, Repr

/-- The message for a schema that is not loaded; `cause` is what is told of the file or of its text.
Of a path that holds NUL and of bytes that are no text nothing else is told. -/
def LoadError.message (cause : String) : LoadError → String
  | .unreadable path => "Cannot read schema " ++ path.text ++ ": " ++ cause
  | .invalidPath _ => cause
  | .undecodable _ => cause
  | .schema error => error.message cause

namespace SchemaFile

/-- The file that a schema is read from. -/
def place (files : Files) (path : Option Path) : Path :=
  path.getD files.schemaPath

/-- The text to read a schema from. -/
def source (files : Files) (path : Path) : Except LoadError String :=
  if path.parts.any holdsNul then .error (.invalidPath path)
  else
    match files.read? path with
    | none => .error (.unreadable path)
    | some .undecodable => .error (.undecodable path)
    | some (.text text) => .ok text

def load (files : Files) (path : Option Path) : Except LoadError GraphQL.Schema := do
  let text ← source files (place files path)
  (GraphQL.Schema.ofSource text).mapError .schema

end SchemaFile

end Toolsmith

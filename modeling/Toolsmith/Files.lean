import Toolsmith.Path

/-!
What a program sees of files: what it can read, and what keeps it from writing. No path may hold the
character NUL.
-/

set_option autoImplicit false

namespace Toolsmith

/-- Why a file cannot be written. -/
inductive FileError where
  /-- A directory on the way does not exist. -/
  | missing
  /-- What is taken for a directory on the way is a file. -/
  | notDirectory
  /-- The path leads to a directory. -/
  | isDirectory
  /-- A directory is to be made where there is a file. -/
  | fileExists
  | nameTooLong
  | holdsNul
deriving DecidableEq, Repr

def FileError.message : FileError → String
  | .missing => "No such file or directory"
  | .notDirectory => "Not a directory"
  | .isDirectory => "Is a directory"
  | .fileExists => "File exists"
  | .nameTooLong => "File name too long"
  | .holdsNul => "The path holds NUL"

inductive FileContent where
  | text (text : String)
  /-- The bytes of the file are no UTF-8. -/
  | undecodable
deriving DecidableEq, Repr

structure Files where
  /-- What a file holds, if it can be read. -/
  read? : Path → Option FileContent
  /-- Where the schema lies that is read when no other is asked for. -/
  schemaPath : Path
  /-- What keeps a file from being written together with the directories it lies in. -/
  obstacle? : Path → Option FileError

def holdsNul (part : String) : Bool :=
  part.toList.contains '\x00'

/-- A name takes at most 255 bytes. -/
def isTooLong (name : String) : Bool :=
  255 < name.utf8ByteSize

end Toolsmith

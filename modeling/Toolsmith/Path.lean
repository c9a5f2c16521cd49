import Toolsmith.Text.Split

/-!
Paths of files. Repeated slashes and parts that are a single dot have no meaning and are dropped;
a part of two dots is kept, since what it leads to is for the file system to say. Exactly two
slashes at the start are a root of their own.
-/

set_option autoImplicit false

namespace Toolsmith

inductive PathRoot where
  | relative
  | absolute
  | doubleSlash
deriving DecidableEq, Repr

structure Path where
  root : PathRoot
  parts : List String
deriving DecidableEq, Repr

namespace Path

def rootOf (text : List Char) : PathRoot :=
  match (text.takeWhile (· == '/')).length with
  | 0 => .relative
  | 2 => .doubleSlash
  | _ => .absolute

def ofString (text : String) : Path :=
  let parts := (Text.splitAt '/' text.toList).map String.ofList
  { root := rootOf text.toList, parts := parts.filter fun part => part ≠ "" ∧ part ≠ "." }

def rootText : PathRoot → String
  | .relative => ""
  | .absolute => "/"
  | .doubleSlash => "//"

def text (path : Path) : String :=
  if path.root = .relative ∧ path.parts = [] then "."
  else rootText path.root ++ "/".intercalate path.parts

/-- The parts of the directory that a path lies in. -/
def directory (path : Path) : List String :=
  path.parts.dropLast

/-- The last part, which names a file in that directory. -/
def name? (path : Path) : Option String :=
  path.parts.getLast?

end Path

end Toolsmith

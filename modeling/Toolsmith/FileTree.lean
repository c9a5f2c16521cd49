import Toolsmith.Files
import Toolsmith.SampleSchema

/-!
The files and directories below a directory, by paths relative to it: what is read from them, and
how writing changes them. Beside this directory, around it and at the roots, nothing is known to
exist, so nothing is read from there and nothing stands in the way of what is written there.
-/

set_option autoImplicit false

namespace Toolsmith

structure FileTree where
  files : List (Path × String)
  /-- Directories that may hold no file. -/
  directories : List Path := []

namespace FileTree

/-- The directory around another one. Both are given by the parts that lead there from a root, the
last one first; parts of two dots are left only where they lead out of the directory that relative
paths start from. -/
def around (root : PathRoot) : List String → List String
  | [] => if root = .relative then [".."] else []
  | ".." :: rest => ".." :: ".." :: rest
  | _ :: rest => rest

def file? (tree : FileTree) (path : Path) : Option String :=
  tree.files.lookup path

/-- A directory is there if it was made, if some file lies below it, or if it is the one that paths
start from or around that one. -/
def hasDirectory (tree : FileTree) (path : Path) : Bool :=
  path.parts.all (· = "..") || tree.directories.contains path ||
    tree.files.any fun (file, _) =>
      file.root = path.root && path.parts.isPrefixOf file.directory

/-- Goes from a directory to the next. -/
def enter (tree : FileTree) (root : PathRoot) (place : List String) (part : String) :
    Except FileError (List String) :=
  let path : Path := ⟨root, (part :: place).reverse⟩
  if part = ".." then .ok (around root place)
  else if tree.hasDirectory path then .ok (part :: place)
  else if (tree.file? path).isSome then .error .notDirectory
  else if isTooLong part then .error .nameTooLong
  else .error .missing

/-- Where parts lead to from a root, if all of them are directories. -/
def walk (tree : FileTree) (root : PathRoot) (parts : List String) :
    Except FileError (List String) :=
  parts.foldlM (tree.enter root) []

def read? (tree : FileTree) (path : Path) : Option String :=
  match tree.walk path.root path.directory, path.name? with
  | .ok place, some name => tree.file? ⟨path.root, (name :: place).reverse⟩
  | _, _ => none

/-- Makes a directory in one that is there. A directory is no obstacle, a file is one. -/
def makeDirectory (tree : FileTree) (root : PathRoot) (outer : List String) (name : String) :
    Except FileError FileTree := do
  let place ← tree.walk root outer
  let path : Path := ⟨root, (name :: place).reverse⟩
  if name = ".." ∨ tree.hasDirectory path then return tree
  else if (tree.file? path).isSome then throw .fileExists
  else if isTooLong name then throw .nameTooLong
  else return { tree with directories := path :: tree.directories }

/-- Makes a directory, given by its parts with the last one first. The directories around it are
made only if they are missing. -/
def makeDirectories (tree : FileTree) (root : PathRoot) : List String → Except FileError FileTree
  | [] => .ok tree
  | name :: outer =>
    match tree.makeDirectory root outer.reverse name with
    | .error .missing => do
      let tree ← tree.makeDirectories root outer
      tree.makeDirectory root outer.reverse name
    | made => made

/-- Sets the text of a file. A file that is there already keeps its place. -/
def putFile (path : Path) (text : String) : List (Path × String) → List (Path × String)
  | [] => [(path, text)]
  | file :: rest => if file.1 = path then (path, text) :: rest else file :: putFile path text rest

/-- Writes a file into a directory that is there. -/
def writeInto (tree : FileTree) (root : PathRoot) (place : List String) (name text : String) :
    Except FileError FileTree :=
  let path : Path := ⟨root, (name :: place).reverse⟩
  if holdsNul name then .error .holdsNul
  else if name = ".." ∨ tree.hasDirectory path then .error .isDirectory
  else if isTooLong name then .error .nameTooLong
  else .ok { tree with files := putFile path text tree.files }

/-- Writes a file after making the directories it lies in. -/
def write (tree : FileTree) (path : Path) (text : String) : Except FileError FileTree :=
  if path.directory.any holdsNul then .error .holdsNul
  else
    match path.name? with
    | none => .error .isDirectory
    | some name => do
      let tree ← tree.makeDirectories path.root path.directory.reverse
      let place ← tree.walk path.root path.directory
      tree.writeInto path.root place name text

/-- The files of a tree, and beside them the sample schema at a path of its own. -/
def toFiles (tree : FileTree) (schemaPath : Path) : Files where
  read? path :=
    if path = schemaPath then some (.text SampleSchema.source) else (tree.read? path).map .text
  schemaPath := schemaPath
  obstacle? path :=
    match tree.write path "" with
    | .error error => some error
    | .ok _ => none

/-- The tree after texts are written to paths. One that cannot be written changes nothing. -/
def writeAll (tree : FileTree) (written : List (Path × String)) : FileTree :=
  written.foldl (fun tree (path, text) => (tree.write path text).toOption.getD tree) tree

/-- The files below the directory that come into being when texts are written to paths. -/
def created (tree : FileTree) (written : List (Path × String)) : List (Path × String) :=
  (tree.writeAll written).files.filter fun (path, _) =>
    path.root = .relative && path.parts.head? ≠ some ".." && (tree.file? path).isNone

end FileTree

end Toolsmith

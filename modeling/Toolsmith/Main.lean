import Toolsmith.CommandLine
import Toolsmith.SampleSchema

/-!
The program: it reads the environment and the schema file, and writes what the command line leaves.
What keeps a file from being written shows when it is written.
-/

set_option autoImplicit false

namespace Toolsmith.CommandLine

def usage : String :=
  "usage: gqlbridge [-h] [--schema SCHEMA] [--output OUTPUT] [--call TOOL] [--args ARGS] [-v]\n"

def readEnvironment : IO Environment := do
  let mut environment : Environment := []
  for name in Settings.variableNames do
    if let some value ← IO.getEnv name then
      environment := (name, value) :: environment
  return environment

/-- What a file holds, or what is told of one that cannot be read. -/
def readFile (path : Path) : IO (Except String FileContent) := do
  try
    let bytes ← IO.FS.readBinFile path.text
    return .ok ((String.fromUTF8? bytes).elim .undecodable .text)
  catch error => return .error (toString error)

/-- What is told of a failure; `unreadable` is what was told of the schema file. -/
def causeOf (unreadable : String) : Failure → String
  | .load (.unreadable _) => unreadable
  | .load (.schema .malformed) => "the text does not follow the grammar"
  | .load (.schema .invalid) => "the text breaks a rule of the language"
  | .argumentsNotJson => "the text does not follow the grammar"
  | _ => ""

/-- Writes a file and the directories it lies in. -/
def writeFile (path : Path) (text : String) : IO Unit := do
  let directory : Path := { path with parts := path.parts.dropLast }
  IO.FS.createDirAll directory.text
  IO.FS.writeFile path.text text

def finish (unreadable : String) (result : Result) : IO UInt32 := do
  let cause := (result.failure.map (causeOf unreadable)).getD ""
  IO.eprint (result.errorText Report.decimal cause)
  for (path, text) in result.written do
    writeFile path text
  IO.print result.output
  return UInt32.ofNat result.exitCode

def conclude (unreadable : String) : Outcome → IO UInt32
  | .finished result => finish unreadable result
  | .broken breakdown => do
    IO.eprint (breakdown.message ++ "\n")
    return 1
  | .help => do
    IO.print usage
    return 0
  | .mistake => do
    IO.eprint usage
    return 2

/-- The sample schema is part of the program, so it can be read wherever it is said to lie. -/
def readSchema : Option Path → IO (Except String FileContent)
  | some path => readFile path
  | none => return .ok (.text SampleSchema.source)

end Toolsmith.CommandLine

open Toolsmith CommandLine in
def main (arguments : List String) : IO UInt32 := do
  match plan (← readEnvironment) arguments with
  | .error outcome => conclude "" outcome
  | .ok job =>
    let content ← readSchema job.schemaPath
    let files : Files :=
      { read? := fun _ => content.toOption
        schemaPath := SampleSchema.path
        obstacle? := fun _ => none }
    let unreadable := match content with
      | .error told => told
      | .ok _ => ""
    conclude unreadable (job.run files)

import Toolsmith.Catalog
import Toolsmith.CommandLine.Options
import Toolsmith.Json.Surrogate
import Toolsmith.Operation
import Toolsmith.Report
import Toolsmith.SchemaFile
import Toolsmith.Settings
import Toolsmith.Value.Json

/-!
The command line. It reports on the tools of a schema and may write their catalog, or it compiles one
call. What it does is a function of the environment, the arguments and the files; the first failure
decides the result, and then nothing is written. A run may also break off, and then it has no result
at all.
-/

set_option autoImplicit false

namespace Toolsmith.CommandLine

inductive Failure where
  | settings (error : SettingsError)
  | load (error : LoadError)
  | argumentsNotJson
  | argumentsNotObject
  | call (error : CallError)
  /-- A key of the arguments is no name, and it holds surrogates. -/
  | invalidName (key : List Text.CodePoint)
deriving DecidableEq, Repr

/-- The message of a failure. What is wrong with a file, with the text of a schema or with a JSON
text is found out by others, and `cause` is what they tell of it. -/
def Failure.message (cause : String) : Failure → String
  | .settings error => error.message
  | .load error => error.message cause
  | .argumentsNotJson => "--args is not valid JSON: " ++ cause
  | .argumentsNotObject => "--args must be a JSON object"
  | .call error => error.message
  | .invalidName key => Text.quotedPoints key ++ " is not a valid GraphQL name"

/-- What is told on the way when that is asked for. -/
inductive LogEntry where
  | loaded (path : Path) (types : Nat)
  | compiled (tool operation : String)
  | extracted (tools : Nat)
deriving DecidableEq, Repr

/-- An entry, where `showTypes` writes the count of types. -/
def LogEntry.text (showTypes : Nat → String) : LogEntry → String
  | .loaded path types =>
    "gqlbridge.loader: Loaded schema from " ++ path.text ++ " (" ++ showTypes types ++ " types)"
  | .compiled tool operation => "gqlbridge.compiler: Compiled " ++ tool ++ " -> " ++ operation
  | .extracted tools => "gqlbridge.extractor: Extracted " ++ Report.decimal tools ++ " tools"

/-- What a run leaves behind. -/
structure Result where
  output : String
  written : List (Path × String)
  log : List LogEntry
  failure : Option Failure
deriving DecidableEq, Repr

namespace Result

def exitCode (result : Result) : Nat :=
  if result.failure.isSome then 1 else 0

def errorText (showTypes : Nat → String) (cause : String) (result : Result) : String :=
  String.join (result.log.map fun entry => entry.text showTypes ++ "\n") ++
    ((result.failure.map fun failure => "Error: " ++ failure.message cause ++ "\n").getD "")

def failed (log : List LogEntry) (failure : Failure) : Result :=
  { output := "", written := [], log, failure := some failure }

end Result

/-- What there is to do once settings and options are known. -/
structure Job where
  schemaPath : Option Path
  policy : SelectionPolicy
  /-- The tool to call; without one the tools are reported on. -/
  tool : Option String
  /-- The text of the call's arguments, if there is a text. -/
  arguments : Option String
  output : Option Path
  verbose : Bool
deriving DecidableEq, Repr

/-- Why a run breaks off. -/
inductive Breakdown where
  /-- The schema path holds NUL. -/
  | invalidPath (path : Path)
  /-- The schema file holds no text. -/
  | undecodable (path : Path)
  /-- A call has no text to read its arguments from. -/
  | argumentsMissing
  /-- A call leads to a root whose type has no fields. -/
  | noFields (kind : OperationKind)
  /-- The operation holds a surrogate, and only characters can be written. -/
  | unprintable
  | tools (error : ToolError)
  | uncountable (error : Uncountable)
  | unwritable (path : Path) (error : FileError)
deriving DecidableEq, Repr

def Breakdown.message : Breakdown → String
  | .invalidPath path => FileError.holdsNul.message ++ ": " ++ path.text
  | .undecodable path => "Not in UTF-8: " ++ path.text
  | .argumentsMissing => "--args has no value"
  | .noFields kind => (CallError.noFields kind).message
  | .unprintable => "The operation cannot be written in UTF-8"
  | .tools error => error.message
  | .uncountable error => error.message
  | .unwritable path error => error.message ++ ": " ++ path.text

inductive Outcome where
  | finished (result : Result)
  | broken (breakdown : Breakdown)
  | help
  | mistake
deriving DecidableEq, Repr

namespace Job

def schemaPathOf (settings : Settings) : OptionValue → Option Path
  | .absent => settings.schemaPath
  | .dropped => none
  | .given text => some (.ofString text)

/-- Without arguments a call has an empty object of them. -/
def argumentsOf : OptionValue → Option String
  | .absent => some "{}"
  | .dropped => none
  | .given text => some text

/-- The options come before the settings. -/
def ofOptions (settings : Settings) (options : Options) : Job :=
  { schemaPath := schemaPathOf settings options.schema
    policy := settings.policy
    tool := options.call.text?.filter (· ≠ "")
    arguments := argumentsOf options.arguments
    output := options.output.text?.map Path.ofString
    verbose := options.verbose }

/-- Reads the arguments of a call, which are a JSON object. Surrogates are read as their
stand-ins. -/
def readArguments (standIn : Nat → Char) (text : String) : Except Failure Arguments :=
  match Json.read? (Json.Surrogate.fill standIn text) with
  | none => .error .argumentsNotJson
  | some (.obj members) => .ok (Json.membersToValue members)
  | some _ => .error .argumentsNotObject

def compileWith
    (standIn : Nat → Char)
    (job : Job)
    (schema : GraphQL.Schema)
    (tool arguments : String) : Except Failure String := do
  let arguments ← readArguments standIn arguments
  let operation ← (schema.compile job.policy { name := tool, arguments }).mapError .call
  return operation.text

/-- A failure, told with the surrogates of the key that is at fault. Which ones they are is known
from what the call comes to with other stand-ins. -/
def failureOf (failure : Failure) (other : Except Failure String) : Failure :=
  match failure, other with
  | .call (.argument (.invalidName (.str key))),
      .error (.call (.argument (.invalidName (.str otherKey)))) =>
    if key = otherKey then failure
    else .invalidName (Json.Surrogate.pointsOf key.toList otherKey.toList)
  | _, _ => failure

/-- What a call comes to, from what it comes to with both kinds of stand-ins. An operation that
changes with them holds a surrogate and cannot be written. -/
def settle (own common : Except Failure String) : Except Breakdown (Except Failure String) :=
  match own with
  | .error (.call (.noFields kind)) => .error (.noFields kind)
  | .error failure => .ok (.error (failureOf failure common))
  | .ok operation =>
    if common.toOption = some operation then .ok (.ok operation) else .error .unprintable

/-- The operation that a call is compiled to. -/
def compile (job : Job) (schema : GraphQL.Schema) (tool arguments : String) :
    Except Breakdown (Except Failure String) :=
  settle (compileWith Json.Surrogate.ownStandIn job schema tool arguments)
    (compileWith Json.Surrogate.commonStandIn job schema tool arguments)

def catalogLine (path : Path) (tools : List Tool) : String :=
  "Wrote " ++ path.text ++ " (" ++ Report.decimal tools.length ++ " tools)\n"

def runCall
    (job : Job)
    (schema : GraphQL.Schema)
    (log : List LogEntry)
    (tool arguments : String) : Except Breakdown Result := do
  match ← job.compile schema tool arguments with
  | .error failure => return .failed log failure
  | .ok operation =>
    return { output := operation ++ "\n"
             written := []
             log := log ++ [.compiled tool operation]
             failure := none }

/-- The catalog is written to a path that nothing keeps from being written. -/
def runReport (files : Files) (job : Job) (schema : GraphQL.Schema) (log : List LogEntry) :
    Except Breakdown Result := do
  let tools ← schema.tools.mapError .tools
  let report ← (Report.ofTools tools).mapError .uncountable
  let log := log ++ [.extracted tools.length]
  match job.output with
  | none => return { output := report.text, written := [], log, failure := none }
  | some path =>
    match files.obstacle? path with
    | some error => throw (.unwritable path error)
    | none =>
      return { output := report.text ++ catalogLine path tools
               written := [(path, catalogText tools)]
               log
               failure := none }

/-- Everything is logged; whether the log is shown is another matter. -/
def runLogged (files : Files) (job : Job) : Except Breakdown Result :=
  match SchemaFile.load files job.schemaPath with
  | .error (.invalidPath path) => .error (.invalidPath path)
  | .error (.undecodable path) => .error (.undecodable path)
  | .error error => .ok (.failed [] (.load error))
  | .ok schema =>
    let log := [.loaded (SchemaFile.place files job.schemaPath) schema.types.length]
    match job.tool, job.arguments with
    | some tool, some arguments => job.runCall schema log tool arguments
    | some _, none => .error .argumentsMissing
    | none, _ => job.runReport files schema log

def run (files : Files) (job : Job) : Outcome :=
  match job.runLogged files with
  | .error breakdown => .broken breakdown
  | .ok result => .finished (if job.verbose then result else { result with log := [] })

end Job

/-- The job that the settings and the arguments ask for, or how the run ends without one. Settings
that are wrong are reported before anything is made of the arguments. -/
def plan (environment : Environment) (arguments : List String) : Except Outcome Job :=
  match Settings.ofEnvironment environment with
  | .error error => .error (.finished (.failed [] (.settings error)))
  | .ok settings =>
    match Request.ofArguments arguments with
    | .help => .error .help
    | .mistake => .error .mistake
    | .run options => .ok (.ofOptions settings options)

def run (environment : Environment) (files : Files) (arguments : List String) : Outcome :=
  match plan environment arguments with
  | .error outcome => outcome
  | .ok job => job.run files

end Toolsmith.CommandLine

import Toolsmith.CommandLine
import Toolsmith.Proofs.Operation.Outcomes

/-!
How runs end. A run goes through its steps in one order, and the first step that fails decides. What
a failed run leaves is the message of its failure and nothing else. A few inputs make a run break
off, and then there is no message either.
-/

set_option autoImplicit false

namespace Toolsmith.CommandLine

open Json.Surrogate (ownStandIn commonStandIn)

/-! Results. -/

namespace Result

/-- A result as it is shown: its log only when that is asked for. -/
def shown (verbose : Bool) (result : Result) : Result :=
  if verbose then result else { result with log := [] }

variable {verbose : Bool} {result : Result}

@[simp] theorem shown_output : (result.shown verbose).output = result.output := by
  cases verbose <;> rfl

@[simp] theorem shown_written : (result.shown verbose).written = result.written := by
  cases verbose <;> rfl

@[simp] theorem shown_failure : (result.shown verbose).failure = result.failure := by
  cases verbose <;> rfl

theorem shown_failed_nil (failure : Failure) :
    (failed [] failure).shown verbose = failed [] failure := by
  cases verbose <;> rfl

/-- What a failure leaves: its message, at the end of what is told. -/
structure Fails (verbose : Bool) (failure : Failure) (result : Result) : Prop where
  output : result.output = ""
  written : result.written = []
  exitCode : result.exitCode = 1
  told : ∀ showTypes cause, ∃ logged,
    result.errorText showTypes cause = logged ++ ("Error: " ++ failure.message cause ++ "\n") ∧
      (verbose = false → logged = "")

/-- Nothing went wrong, and nothing is told unless that is asked for. -/
structure Succeeds (verbose : Bool) (result : Result) : Prop where
  exitCode : result.exitCode = 0
  told : verbose = false → ∀ showTypes cause, result.errorText showTypes cause = ""

theorem fails_shown_failed (verbose : Bool) (log : List LogEntry) (failure : Failure) :
    ((failed log failure).shown verbose).Fails verbose failure := by
  refine ⟨by simp [failed], by simp [failed], by simp [failed, exitCode], fun showTypes cause => ?_⟩
  cases verbose with
  | true =>
      refine ⟨String.join (log.map fun entry => entry.text showTypes ++ "\n"), ?_, nofun⟩
      simp only [shown, if_true, errorText, failed, Option.map_some, Option.getD_some]
  | false => exact ⟨"", by simp [shown, failed, errorText], fun _ => rfl⟩

theorem succeeds_shown (verbose : Bool) (none : result.failure = none) :
    (result.shown verbose).Succeeds verbose := by
  refine ⟨by simp [exitCode, none], ?_⟩
  rintro rfl showTypes cause
  simp [shown, errorText, none]

end Result

/-! Schema files. -/

section

variable {files : Files} {given : Option Path} {place path : Path}

theorem source_eq_invalidPath_iff :
    SchemaFile.source files place = .error (.invalidPath path) ↔
      place = path ∧ path.parts.any holdsNul = true := by
  rw [SchemaFile.source]
  split
  · rename_i invalid
    rw [Except.error.injEq, LoadError.invalidPath.injEq]
    constructor
    · rintro rfl
      exact ⟨rfl, invalid⟩
    · exact fun same => same.1
  · rename_i valid
    constructor
    · intro failed
      split at failed <;> simp at failed
    · rintro ⟨rfl, invalid⟩
      exact absurd invalid valid

theorem source_eq_undecodable_iff :
    SchemaFile.source files place = .error (.undecodable path) ↔
      place = path ∧ ¬ path.parts.any holdsNul = true ∧ files.read? path = some .undecodable := by
  rw [SchemaFile.source]
  split
  · rename_i invalid
    constructor
    · intro failed
      simp at failed
    · rintro ⟨rfl, valid, -⟩
      exact absurd invalid valid
  · rename_i valid
    split
    · rename_i unread
      constructor
      · intro failed
        simp at failed
      · rintro ⟨rfl, -, found⟩
        rw [unread] at found
        contradiction
    · rename_i found
      rw [Except.error.injEq, LoadError.undecodable.injEq]
      constructor
      · rintro rfl
        exact ⟨rfl, valid, found⟩
      · exact fun same => same.1
    · rename_i text read
      constructor
      · nofun
      · rintro ⟨rfl, -, found⟩
        cases read.symm.trans found

/-- What is wrong with the file itself shows before its text is looked at. -/
theorem load_eq_error_iff {error : LoadError} (file : ∀ cause, error ≠ .schema cause) :
    SchemaFile.load files given = .error error ↔
      SchemaFile.source files (SchemaFile.place files given) = .error error := by
  rw [SchemaFile.load]
  cases SchemaFile.source files (SchemaFile.place files given) with
  | error other => simp [bind, Except.bind]
  | ok text =>
      constructor
      · intro failed
        cases parsed : GraphQL.Schema.ofSource text with
        | error cause =>
            simp only [bind, Except.bind, parsed, Except.mapError, Except.error.injEq] at failed
            exact absurd failed.symm (file cause)
        | ok schema => simp [bind, Except.bind, parsed, Except.mapError] at failed
      · exact nofun

/-- A path that holds NUL is not looked for. -/
theorem load_eq_invalidPath_iff :
    SchemaFile.load files given = .error (.invalidPath path) ↔
      SchemaFile.place files given = path ∧ path.parts.any holdsNul = true :=
  Iff.trans (load_eq_error_iff fun _ => by nofun) source_eq_invalidPath_iff

theorem load_eq_undecodable_iff :
    SchemaFile.load files given = .error (.undecodable path) ↔
      SchemaFile.place files given = path ∧ ¬ path.parts.any holdsNul = true ∧
        files.read? path = some .undecodable :=
  Iff.trans (load_eq_error_iff fun _ => by nofun) source_eq_undecodable_iff

end

/-! Calls. -/

namespace Job

variable {own common : Except Failure String} {schema : GraphQL.Schema} {tool text : String}

/-- What a call comes to, case by case. -/
inductive Settles (own common : Except Failure String) :
    Except Breakdown (Except Failure String) → Prop
  | noFields {kind : OperationKind} (refused : own = .error (.call (.noFields kind))) :
      Settles own common (.error (.noFields kind))
  | failure {failure : Failure} (failed : own = .error failure)
      (offered : ∀ kind, failure ≠ .call (.noFields kind)) :
      Settles own common (.ok (.error (failureOf failure common)))
  | operation {operation : String} (compiled : own = .ok operation)
      (same : common = .ok operation) : Settles own common (.ok (.ok operation))
  | unprintable {operation : String} (compiled : own = .ok operation)
      (other : common ≠ .ok operation) : Settles own common (.error .unprintable)

theorem settles_settle (own common : Except Failure String) :
    Settles own common (settle own common) := by
  unfold settle
  split
  · exact .noFields rfl
  · rename_i failure offered
    exact .failure rfl offered
  · rename_i operation
    split
    · rename_i same
      exact .operation rfl (Except.toOption_eq_some_iff.mp same)
    · rename_i other
      exact .unprintable rfl (mt Except.toOption_eq_some_iff.mpr other)

/-- A failure is told as it is if it does not change with what stands in for surrogates. -/
@[simp] theorem failureOf_error (failure : Failure) :
    failureOf failure (.error failure) = failure := by
  unfold failureOf
  split
  · rename_i same
    simp_all
  · rfl

/-- A call leads to a root without fields when its name does and its arguments can be read. -/
theorem compileWith_eq_noFields_iff {standIn : Nat → Char} {job : Job} {kind : OperationKind} :
    job.compileWith standIn schema tool text = .error (.call (.noFields kind)) ↔
      (∃ given, readArguments standIn text = .ok given) ∧
        (∃ field, tool = ToolName.text ⟨kind, field⟩) ∧ schema.rootFields? kind = none := by
  rw [compileWith]
  cases read : readArguments standIn text with
  | error failure =>
      have others : failure ≠ .call (.noFields kind) := by
        rintro rfl
        unfold readArguments at read
        split at read <;> simp at read
      simp [bind, Except.bind, others]
  | ok given =>
      have noFields :
          schema.compile job.policy ⟨tool, given⟩ = .error (.noFields kind) ↔ _ :=
        GraphQL.Schema.compile_eq_noFields_iff
      simp only [bind, Except.bind, Except.ok.injEq, exists_eq', true_and, ← noFields]
      cases schema.compile job.policy ⟨tool, given⟩ with
      | ok operation => simp [Except.mapError, pure, Except.pure]
      | error error => simp [Except.mapError]

end Job

/-! Steps. -/

/-- The tool to call, if one is named. -/
def Options.tool? (options : Options) : Option String :=
  options.call.text?.filter (· ≠ "")

def Outcome.ofLogged (verbose : Bool) : Except Breakdown Result → Outcome
  | .error breakdown => .broken breakdown
  | .ok result => .finished (result.shown verbose)

theorem Job.run_eq (job : Job) (files : Files) :
    job.run files = .ofLogged job.verbose (job.runLogged files) := by
  unfold Job.run
  cases job.runLogged files <;> rfl

section

variable (environment : Environment) (files : Files) (options : Options)

/-- The settings are read, and then loading the schema has a result. -/
structure Loads (settings : Settings) (result : Except LoadError GraphQL.Schema) : Prop where
  ok : Settings.ofEnvironment environment = .ok settings
  load : SchemaFile.load files (Job.schemaPathOf settings options.schema) = result

/-- A tool is called, with a text of its arguments, in a schema that was loaded. -/
structure Calls (settings : Settings) (schema : GraphQL.Schema) (tool text : String) : Prop where
  loads : Loads environment files options settings (.ok schema)
  called : options.tool? = some tool
  given : Job.argumentsOf options.arguments = some text

/-- How a run may end: one case for each step that can end it, after the steps before it. -/
inductive Ends : Outcome → Prop
  | settings {error : SettingsError} (refused : Settings.ofEnvironment environment = .error error) :
      Ends (.finished ((Result.failed [] (.settings error)).shown options.verbose))
  | invalidPath {settings : Settings} {path : Path}
      (loads : Loads environment files options settings (.error (.invalidPath path))) :
      Ends (.broken (.invalidPath path))
  | undecodable {settings : Settings} {path : Path}
      (loads : Loads environment files options settings (.error (.undecodable path))) :
      Ends (.broken (.undecodable path))
  | load {settings : Settings} {error : LoadError}
      (loads : Loads environment files options settings (.error error)) :
      Ends (.finished ((Result.failed [] (.load error)).shown options.verbose))
  | argumentsMissing {settings : Settings} {schema : GraphQL.Schema} {tool : String}
      (loads : Loads environment files options settings (.ok schema))
      (called : options.tool? = some tool) (dropped : options.arguments = .dropped) :
      Ends (.broken .argumentsMissing)
  | call {settings : Settings} {schema : GraphQL.Schema} {tool text : String}
      (calls : Calls environment files options settings schema tool text) (log : List LogEntry) :
      Ends (.ofLogged options.verbose
        ((Job.ofOptions settings options).runCall schema log tool text))
  | report {settings : Settings} {schema : GraphQL.Schema}
      (loads : Loads environment files options settings (.ok schema))
      (uncalled : options.tool? = none) (log : List LogEntry) :
      Ends (.ofLogged options.verbose
        ((Job.ofOptions settings options).runReport files schema log))

/-- What makes a run break off: a schema file that no path leads to or that holds no text; a call
without a text of arguments, on a root without fields, or with an operation that holds a surrogate;
a report on a schema without tools. -/
inductive BreaksOff : Prop
  | invalidPath {settings : Settings}
      (ok : Settings.ofEnvironment environment = .ok settings)
      (invalid : (SchemaFile.place files (Job.schemaPathOf settings options.schema)).parts.any
        holdsNul = true) : BreaksOff
  | undecodable {settings : Settings} {path : Path}
      (ok : Settings.ofEnvironment environment = .ok settings)
      (place : SchemaFile.place files (Job.schemaPathOf settings options.schema) = path)
      (valid : ¬ path.parts.any holdsNul = true)
      (found : files.read? path = some .undecodable) : BreaksOff
  | argumentsMissing {settings : Settings} {schema : GraphQL.Schema} {tool : String}
      (loads : Loads environment files options settings (.ok schema))
      (called : options.tool? = some tool) (dropped : options.arguments = .dropped) : BreaksOff
  | noFields {settings : Settings} {schema : GraphQL.Schema} {text : String}
      {kind : OperationKind} {field : String} {arguments : Arguments}
      (calls : Calls environment files options settings schema (ToolName.text ⟨kind, field⟩) text)
      (read : Job.readArguments ownStandIn text = .ok arguments)
      (fieldless : schema.rootFields? kind = none) : BreaksOff
  | unprintable {settings : Settings} {schema : GraphQL.Schema} {tool text operation : String}
      (calls : Calls environment files options settings schema tool text)
      (compiled : (Job.ofOptions settings options).compileWith ownStandIn schema tool text =
        .ok operation)
      (other : (Job.ofOptions settings options).compileWith commonStandIn schema tool text ≠
        .ok operation) : BreaksOff
  | tools {settings : Settings} {schema : GraphQL.Schema}
      (loads : Loads environment files options settings (.ok schema))
      (uncalled : options.tool? = none)
      (toolless : ¬ (schema.HasCallableRoots ∧ schema.HasUsableArguments)) : BreaksOff

end

variable {environment : Environment} {files : Files} {arguments : List String} {options : Options}

theorem argumentsOf_eq_none_iff {given : OptionValue} :
    Job.argumentsOf given = none ↔ given = .dropped := by
  cases given <;> simp [Job.argumentsOf]

theorem run_of_settings {settings : Settings} (files : Files)
    (requested : Request.ofArguments arguments = .run options)
    (ok : Settings.ofEnvironment environment = .ok settings) :
    run environment files arguments =
      .ofLogged options.verbose ((Job.ofOptions settings options).runLogged files) := by
  simp only [run, plan, ok, requested, Job.run_eq]
  rfl

namespace Loads

variable {settings : Settings}

theorem runLogged_of_error {error : LoadError}
    (loads : Loads environment files options settings (.error error)) :
    (Job.ofOptions settings options).runLogged files =
      match error with
      | .invalidPath path => .error (.invalidPath path)
      | .undecodable path => .error (.undecodable path)
      | error => .ok (.failed [] (.load error)) := by
  have load : SchemaFile.load files (Job.ofOptions settings options).schemaPath = .error error :=
    loads.load
  rw [Job.runLogged, load]
  cases error <;> rfl

theorem runLogged {schema : GraphQL.Schema}
    (loads : Loads environment files options settings (.ok schema)) :
    ∃ log, (Job.ofOptions settings options).runLogged files =
      match options.tool?, Job.argumentsOf options.arguments with
      | some tool, some text => (Job.ofOptions settings options).runCall schema log tool text
      | some _, none => .error .argumentsMissing
      | none, _ => (Job.ofOptions settings options).runReport files schema log := by
  have load : SchemaFile.load files (Job.ofOptions settings options).schemaPath = .ok schema :=
    loads.load
  rw [Job.runLogged, load]
  exact ⟨_, rfl⟩

end Loads

theorem ends_run (environment : Environment) (files : Files)
    (requested : Request.ofArguments arguments = .run options) :
    Ends environment files options (run environment files arguments) := by
  cases read : Settings.ofEnvironment environment with
  | error error =>
      have ended : run environment files arguments =
          .finished ((Result.failed [] (.settings error)).shown options.verbose) := by
        rw [Result.shown_failed_nil]
        simp only [run, plan, read]
      exact ended ▸ .settings read
  | ok settings =>
      rw [run_of_settings files requested read]
      cases loaded : SchemaFile.load files (Job.schemaPathOf settings options.schema) with
      | error error =>
          have loads : Loads environment files options settings (.error error) := ⟨read, loaded⟩
          rw [loads.runLogged_of_error]
          cases error with
          | invalidPath path => exact .invalidPath loads
          | undecodable path => exact .undecodable loads
          | unreadable path => exact .load loads
          | schema error => exact .load loads
      | ok schema =>
          have loads : Loads environment files options settings (.ok schema) := ⟨read, loaded⟩
          obtain ⟨log, ran⟩ := loads.runLogged
          rw [ran]
          cases called : options.tool? with
          | none => exact .report loads called log
          | some tool =>
              cases given : Job.argumentsOf options.arguments with
              | none => exact .argumentsMissing loads called (argumentsOf_eq_none_iff.mp given)
              | some text => exact .call ⟨loads, called, given⟩ log

/-! Runs that break off. -/

theorem Calls.run_eq {settings : Settings} {schema : GraphQL.Schema} {tool text : String}
    (requested : Request.ofArguments arguments = .run options)
    (calls : Calls environment files options settings schema tool text) :
    ∃ log, run environment files arguments =
      .ofLogged options.verbose
        ((Job.ofOptions settings options).runCall schema log tool text) := by
  obtain ⟨log, ran⟩ := calls.loads.runLogged
  refine ⟨log, ?_⟩
  rw [run_of_settings files requested calls.loads.ok, ran, calls.called, calls.given]

theorem Job.runCall_of_broken {job : Job} {schema : GraphQL.Schema} {tool text : String}
    {breakdown : Breakdown} (broken : job.compile schema tool text = .error breakdown)
    (log : List LogEntry) : job.runCall schema log tool text = .error breakdown := by
  rw [Job.runCall, broken]
  rfl

theorem tools_eq_error {schema : GraphQL.Schema}
    (toolless : ¬ (schema.HasCallableRoots ∧ schema.HasUsableArguments)) :
    ∃ error, schema.tools = .error error := by
  cases made : schema.tools with
  | error error => exact ⟨error, rfl⟩
  | ok tools => exact absurd (GraphQL.Schema.exists_tools_iff.mp ⟨tools, made⟩) toolless

theorem BreaksOff.exists_broken (requested : Request.ofArguments arguments = .run options)
    (breaksOff : BreaksOff environment files options) :
    ∃ breakdown, run environment files arguments = .broken breakdown := by
  cases breaksOff with
  | invalidPath ok invalid =>
      have loads : Loads environment files options _ _ :=
        ⟨ok, load_eq_invalidPath_iff.mpr ⟨rfl, invalid⟩⟩
      rw [run_of_settings files requested ok, loads.runLogged_of_error]
      exact ⟨_, rfl⟩
  | undecodable ok place valid found =>
      have loads : Loads environment files options _ _ :=
        ⟨ok, load_eq_undecodable_iff.mpr ⟨place, valid, found⟩⟩
      rw [run_of_settings files requested ok, loads.runLogged_of_error]
      exact ⟨_, rfl⟩
  | argumentsMissing loads called dropped =>
      obtain ⟨log, ran⟩ := loads.runLogged
      rw [run_of_settings files requested loads.ok, ran, called,
        argumentsOf_eq_none_iff.mpr dropped]
      exact ⟨_, rfl⟩
  | @noFields settings schema text kind field _ calls read fieldless =>
      have refused : (Job.ofOptions settings options).compileWith ownStandIn schema
          (ToolName.text ⟨kind, field⟩) text = .error (.call (.noFields kind)) :=
        Job.compileWith_eq_noFields_iff.mpr ⟨⟨_, read⟩, ⟨field, rfl⟩, fieldless⟩
      have broken : (Job.ofOptions settings options).compile schema
          (ToolName.text ⟨kind, field⟩) text = .error (.noFields kind) := by
        rw [Job.compile, refused, Job.settle]
      obtain ⟨log, ran⟩ := calls.run_eq requested
      rw [ran, Job.runCall_of_broken broken]
      exact ⟨_, rfl⟩
  | @unprintable settings schema tool text operation calls compiled other =>
      have broken : (Job.ofOptions settings options).compile schema tool text =
          .error .unprintable := by
        rw [Job.compile, compiled, Job.settle, if_neg (mt Except.toOption_eq_some_iff.mp other)]
      obtain ⟨log, ran⟩ := calls.run_eq requested
      rw [ran, Job.runCall_of_broken broken]
      exact ⟨_, rfl⟩
  | tools loads uncalled toolless =>
      obtain ⟨log, ran⟩ := loads.runLogged
      obtain ⟨error, none⟩ := tools_eq_error toolless
      rw [run_of_settings files requested loads.ok, ran, uncalled]
      refine ⟨.tools error, ?_⟩
      simp only [Job.runReport, none, Except.mapError, bind, Except.bind, Outcome.ofLogged]

/-- A run breaks off for the known reasons if it has a result without them. -/
theorem broken_iff (requested : Request.ofArguments arguments = .run options)
    (finishes : ¬ BreaksOff environment files options →
      ∃ result, run environment files arguments = .finished result) :
    (∃ breakdown, run environment files arguments = .broken breakdown) ↔
      BreaksOff environment files options := by
  refine ⟨?_, BreaksOff.exists_broken requested⟩
  rintro ⟨breakdown, broken⟩
  by_contra whole
  obtain ⟨result, finished⟩ := finishes whole
  rw [broken] at finished
  contradiction

end Toolsmith.CommandLine

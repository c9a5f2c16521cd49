import Toolsmith.Proofs.CommandLine.Call
import Toolsmith.Proofs.Tool.CatalogText
import Toolsmith.Proofs.Tool.Index

/-!
Reports from the command line. A run that fails leaves no output and no file; a file is written only
by a run that succeeds, and then it is the catalog of the tools that the output reports on. All
counts of tools agree.
-/

set_option autoImplicit false

namespace Toolsmith

/-! What is written of tools. -/

theorem Report.text_eq (report : Report) :
    report.text =
      report.headLine ++ "\n" ++ String.join (report.lines.tail.map (· ++ "\n")) :=
  String.join_cons

/-- A report starts with a line that tells how many tools there are. -/
theorem Report.exists_text_eq (report : Report) :
    ∃ rest, report.text =
      "Loaded schema with " ++ decimal report.rows.length ++ " tools (" ++
        decimal report.queryCount ++ " queries, " ++ decimal report.mutationCount ++
        " mutations)" ++ "\n" ++ rest :=
  ⟨_, report.text_eq⟩

/-- A catalog is read as an array with one item for each tool. -/
theorem exists_read?_catalogText (tools : List Tool) :
    ∃ items, Json.read? (catalogText tools) = some (.arr items) ∧ items.length = tools.length := by
  refine ⟨_, read?_catalogText tools, ?_⟩
  rw [List.length_map]

theorem GraphQL.Schema.exists_report {source : String} {schema : Schema}
    (accepted : ofSource source = .ok schema) {tools : List Tool}
    (made : schema.tools = .ok tools) :
    ∃ report, Report.ofTools tools = .ok report ∧ report.rows.length = tools.length := by
  have stand := standsFor_tools (declaresOnce_ofSource accepted) made
  obtain ⟨rows, counted, listed⟩ := exists_rows stand
  exact ⟨_, Report.ofTools_eq counted, listed.length_eq.symm.trans stand.length_eq⟩

namespace CommandLine

variable {environment : Environment} {files : Files} {arguments : List String} {options : Options}

theorem Loads.exists_source {settings : Settings} {schema : GraphQL.Schema}
    (loads : Loads environment files options settings (.ok schema)) :
    ∃ source, GraphQL.Schema.ofSource source = .ok schema := by
  obtain ⟨source, _, parsed⟩ := Except.bind_eq_ok_iff.mp loads.load
  exact ⟨source, Except.mapError_eq_ok_iff.mp parsed⟩

theorem text?_eq_some_iff {value : OptionValue} {text : String} :
    value.text? = some text ↔ value = .given text := by
  cases value <;> simp [OptionValue.text?]

/-- A report, and the catalog behind it if there is a path for that. -/
inductive Reports (options : Options) (tools : List Tool) (report : Report) (result : Result) : Prop
  | alone (unasked : ∀ text, options.output ≠ .given text) (output : result.output = report.text)
      (written : result.written = [])
  | catalog {text : String} (asked : options.output = .given text)
      (output : result.output = report.text ++ Job.catalogLine (.ofString text) tools)
      (written : result.written = [(.ofString text, catalogText tools)])

theorem exists_runReport_eq_ok {schema : GraphQL.Schema} {tools : List Tool} {report : Report}
    (made : schema.tools = .ok tools) (reported : Report.ofTools tools = .ok report)
    (writable : ∀ text, options.output = .given text →
      files.obstacle? (Path.ofString text) = none)
    (settings : Settings) (log : List LogEntry) :
    ∃ result, (Job.ofOptions settings options).runReport files schema log = .ok result ∧
      result.failure = none ∧ Reports options tools report result := by
  have output : (Job.ofOptions settings options).output =
      options.output.text?.map Path.ofString := rfl
  simp only [Job.runReport, made, reported, output, Except.mapError, bind, Except.bind]
  cases stated : options.output.text? with
  | none =>
      have unasked : ∀ text, options.output ≠ .given text := by
        intro text asked
        rw [text?_eq_some_iff.mpr asked] at stated
        contradiction
      -- The fields are projected first, or the two sides are compared as written-out texts.
      exact ⟨_, rfl, rfl, .alone unasked (by dsimp only) rfl⟩
  | some text =>
      have asked := text?_eq_some_iff.mp stated
      have free := writable text asked
      simp only [Option.map_some, free]
      exact ⟨_, rfl, rfl, .catalog asked (by dsimp only) rfl⟩

theorem Reports.shown {tools : List Tool} {report : Report} {result : Result}
    (reports : Reports options tools report result) (verbose : Bool) :
    Reports options tools report (result.shown verbose) := by
  cases reports with
  | alone unasked output written =>
      exact .alone unasked (Result.shown_output.trans output) (Result.shown_written.trans written)
  | catalog asked output written =>
      exact .catalog asked (Result.shown_output.trans output) (Result.shown_written.trans written)

/-- What a run without a call leaves when it does not break off: the message of a failure, or the
report on the tools of the schema and, where it is asked for, their catalog. -/
theorem exists_reported_of_ends {outcome : Outcome} (uncalled : options.tool? = none)
    (writable : ∀ text, options.output = .given text →
      files.obstacle? (Path.ofString text) = none)
    (ends : Ends environment files options outcome)
    (whole : ¬ BreaksOff environment files options) :
    ∃ result, outcome = .finished result ∧
      ((∃ failure, result.Fails options.verbose failure) ∨
        result.Succeeds options.verbose ∧
          ∃ settings schema tools report,
            Loads environment files options settings (.ok schema) ∧ schema.tools = .ok tools ∧
              Report.ofTools tools = .ok report ∧ report.rows.length = tools.length ∧
              Reports options tools report result) := by
  cases ends with
  | settings =>
      exact ⟨_, rfl, .inl ⟨_, Result.fails_shown_failed options.verbose [] _⟩⟩
  | invalidPath loads =>
      obtain ⟨rfl, invalid⟩ := load_eq_invalidPath_iff.mp loads.load
      exact absurd (.invalidPath loads.ok invalid) whole
  | undecodable loads =>
      obtain ⟨place, valid, found⟩ := load_eq_undecodable_iff.mp loads.load
      exact absurd (.undecodable loads.ok place valid found) whole
  | load => exact ⟨_, rfl, .inl ⟨_, Result.fails_shown_failed options.verbose [] _⟩⟩
  | argumentsMissing loads called dropped =>
      exact absurd (.argumentsMissing loads called dropped) whole
  | call calls =>
      have called := calls.called
      rw [uncalled] at called
      contradiction
  | @report settings schema loads _ log =>
      have usable : schema.HasCallableRoots ∧ schema.HasUsableArguments := by
        by_contra toolless
        exact whole (.tools loads uncalled toolless)
      obtain ⟨tools, made⟩ := GraphQL.Schema.exists_tools_iff.mpr usable
      obtain ⟨source, accepted⟩ := loads.exists_source
      obtain ⟨report, reported, count⟩ := GraphQL.Schema.exists_report accepted made
      obtain ⟨result, ran, none, reports⟩ :=
        exists_runReport_eq_ok made reported writable settings log
      rw [ran]
      exact ⟨_, rfl, .inr ⟨Result.succeeds_shown options.verbose none, settings, schema, tools,
        report, loads, made, reported, count, reports.shown options.verbose⟩⟩

/-- What a run without a log may leave. It has failed, and leaves nothing but the message of its
failure, or it has succeeded and has no message. A file is written exactly when the run succeeds, a
path for it is given and no tool is called. It is one file, with the catalog of the tools of the
schema, and the output is the report on the same tools and a line about the file; the array in the
file, the first line of the report and the line about the file agree in the count of tools. -/
structure Leaves (environment : Environment) (files : Files) (options : Options)
    (result : Result) : Prop where
  message :
    (result.exitCode = 1 ∧ result.output = "" ∧ result.written = [] ∧
        ∃ failure : Failure, ∀ showTypes cause,
          result.errorText showTypes cause = "Error: " ++ failure.message cause ++ "\n") ∨
      result.exitCode = 0 ∧ ∀ showTypes cause, result.errorText showTypes cause = ""
  written_iff :
    result.written ≠ [] ↔
      result.exitCode = 0 ∧ (∃ text, options.output = .given text) ∧ options.tool? = none
  catalog :
    result.written ≠ [] →
      ∃ settings schema tools report text items rest,
        Loads environment files options settings (.ok schema) ∧
          schema.tools = .ok tools ∧ Report.ofTools tools = .ok report ∧
          options.output = .given text ∧
          result.written = [(.ofString text, catalogText tools)] ∧
          result.output =
            report.text ++ ("Wrote " ++ (Path.ofString text).text ++ " (" ++
              Report.decimal tools.length ++ " tools)\n") ∧
          Json.read? (catalogText tools) = some (.arr items) ∧
          items.length = tools.length ∧
          report.text =
            "Loaded schema with " ++ Report.decimal tools.length ++ " tools (" ++
              Report.decimal report.queryCount ++ " queries, " ++
              Report.decimal report.mutationCount ++ " mutations)" ++ "\n" ++ rest

theorem Leaves.of_fails {result : Result} {failure : Failure} (fails : result.Fails false failure) :
    Leaves environment files options result where
  message := by
    refine .inl ⟨fails.exitCode, fails.output, fails.written, failure, fun showTypes cause => ?_⟩
    obtain ⟨logged, told, empty⟩ := fails.told showTypes cause
    rw [told, empty rfl, String.empty_append]
  written_iff := by
    simp [fails.written, fails.exitCode]
  catalog := fun written => absurd fails.written written

theorem Leaves.of_call {result : Result} {tool : String} (called : options.tool? = some tool)
    (succeeds : result.Succeeds false) (written : result.written = []) :
    Leaves environment files options result where
  message := .inr ⟨succeeds.exitCode, succeeds.told rfl⟩
  written_iff := by
    simp [written, called]
  catalog := fun nonempty => absurd written nonempty

theorem Leaves.of_report {result : Result} {settings : Settings} {schema : GraphQL.Schema}
    {tools : List Tool} {report : Report} (uncalled : options.tool? = none)
    (succeeds : result.Succeeds false)
    (loads : Loads environment files options settings (.ok schema))
    (made : schema.tools = .ok tools) (reported : Report.ofTools tools = .ok report)
    (count : report.rows.length = tools.length) (reports : Reports options tools report result) :
    Leaves environment files options result where
  message := .inr ⟨succeeds.exitCode, succeeds.told rfl⟩
  written_iff := by
    cases reports with
    | alone unasked _ written => simp [written, unasked]
    | catalog asked _ written => simp [written, asked, uncalled, succeeds.exitCode]
  catalog := by
    intro nonempty
    cases reports with
    | alone _ _ written => exact absurd written nonempty
    | @catalog text asked output written =>
        obtain ⟨items, read, itemCount⟩ := exists_read?_catalogText tools
        obtain ⟨rest, started⟩ := report.exists_text_eq
        rw [count] at started
        exact ⟨settings, schema, tools, report, text, items, rest, loads, made, reported, asked,
          written, output, read, itemCount, started⟩

/-- A failed run leaves no trace, and a run that succeeds writes at most the catalog. A run has a
result unless it breaks off, and when it does so is known. -/
theorem run_leaves (environment : Environment)
    (requested : Request.ofArguments arguments = .run options)
    (quiet : options.verbose = false)
    (writable : ∀ text, options.output = .given text →
      files.obstacle? (Path.ofString text) = none) :
    ((∃ breakdown, run environment files arguments = .broken breakdown) ↔
        BreaksOff environment files options) ∧
      (¬ BreaksOff environment files options →
        ∃ result, run environment files arguments = .finished result ∧
          Leaves environment files options result) := by
  have ends := ends_run environment files requested
  have finished (whole : ¬ BreaksOff environment files options) :
      ∃ result, run environment files arguments = .finished result ∧
        Leaves environment files options result := by
    cases called : options.tool? with
    | some tool =>
        obtain ⟨result, same, ended⟩ := exists_result_of_ends called ends whole
        rw [quiet] at ended
        cases ended with
        | operation _ _ _ written succeeds =>
            exact ⟨result, same, .of_call called succeeds written⟩
        | failure _ fails => exact ⟨result, same, .of_fails fails⟩
    | none =>
        obtain ⟨result, same, ended⟩ := exists_reported_of_ends called writable ends whole
        rw [quiet] at ended
        obtain ⟨_, fails⟩ | ⟨succeeds, _, _, _, _, loads, made, reported, count, reports⟩ := ended
        · exact ⟨result, same, .of_fails fails⟩
        · exact ⟨result, same, .of_report called succeeds loads made reported count reports⟩
  exact ⟨broken_iff requested fun whole => (finished whole).imp fun _ ended => ended.1, finished⟩

theorem run_leaves_sample :
    ∃ result,
      Request.ofArguments ["--schema", "s.graphql", "--output", "out/tools.json"] =
          .run { schema := .given "s.graphql", output := .given "out/tools.json" } ∧
        run [] (filesOf "s.graphql" "type Query { f: Int }")
          ["--schema", "s.graphql", "--output", "out/tools.json"] = .finished result ∧
        result.written ≠ [] ∧
        Leaves [] (filesOf "s.graphql" "type Query { f: Int }")
          { schema := .given "s.graphql", output := .given "out/tools.json" } result := by
  have requested : Request.ofArguments ["--schema", "s.graphql", "--output", "out/tools.json"] =
      .run { schema := .given "s.graphql", output := .given "out/tools.json" } := rfl
  let files := filesOf "s.graphql" "type Query { f: Int }"
  have writable : ∀ text, OptionValue.given "out/tools.json" = .given text →
      files.obstacle? (.ofString text) = none := fun _ _ => rfl
  obtain ⟨broken, finished⟩ := run_leaves [] requested rfl writable
  have checked : (match run [] files ["--schema", "s.graphql", "--output", "out/tools.json"] with
      | .finished result => !result.written.isEmpty
      | _ => false) = true := by
    decide +kernel
  obtain ⟨result, ran, leaves⟩ := finished fun breaksOff => by
    obtain ⟨breakdown, stopped⟩ := broken.mpr breaksOff
    simp [stopped] at checked
  rw [ran] at checked
  exact ⟨result, requested, ran, by simpa using checked, leaves⟩

/-- A schema can be loaded and its tools cannot be made: the report breaks off, and no message says
why. -/
theorem run_without_tools :
    ∃ options,
      Request.ofArguments ["--schema", "s.graphql"] = .run options ∧ options.verbose = false ∧
        options.output = .absent ∧
        ∃ breakdown,
          run []
              (filesOf "s.graphql"
                "enum E { A @deprecated(reason: 1) } type Query { f(x: E): Int }")
              ["--schema", "s.graphql"] = .broken breakdown := by
  let files := filesOf "s.graphql"
    "enum E { A @deprecated(reason: 1) } type Query { f(x: E): Int }"
  obtain ⟨schema, loaded, reached⟩ := Except.exists_eq_ok_of_any
    (SchemaFile.load files (some (.ofString "s.graphql")))
    (fun schema => (schema.rootFields .query).any fun field =>
      field.arguments.any fun argument =>
        (schema.kind? argument.type.typeName).any GraphQL.TypeKind.isUnusable)
    (by decide +kernel)
  have requested : Request.ofArguments ["--schema", "s.graphql"] =
      .run { schema := .given "s.graphql" } := rfl
  have unusable := GraphQL.Schema.not_hasUsableArguments_of_any reached
  have loads : Loads [] files { schema := .given "s.graphql" } {} (.ok schema) := ⟨rfl, loaded⟩
  have breaksOff : BreaksOff [] files { schema := .given "s.graphql" } :=
    .tools loads rfl fun usable => unusable usable.2
  exact ⟨_, requested, rfl, rfl, breaksOff.exists_broken requested⟩

end CommandLine

end Toolsmith

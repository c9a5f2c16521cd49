import Toolsmith.Proofs.CommandLine.Run
import Toolsmith.Proofs.Json.Reading
import Toolsmith.Proofs.Json.Surrogate
import Toolsmith.Proofs.Value.Default

/-!
Calls from the command line. A run with a call does one operation after the other, and its result
is that of the first one that fails or of the last. The arguments are read from a JSON text, and
nothing is lost or added on the way: a call comes to the same whether its arguments are written down
or not. What stands in for surrogates has no say in that.
-/

set_option autoImplicit false

namespace Toolsmith.CommandLine

open Json.Surrogate (ownStandIn commonStandIn fill)

/-! Arguments. -/

theorem map_fst_membersToValue (members : List (String × Json)) :
    (Json.membersToValue members).map Prod.fst = (members.map Prod.fst).map Key.str := by
  induction members with
  | nil => rfl
  | cons member rest inductionHypothesis =>
      rw [Json.membersToValue, List.map_cons, inductionHypothesis, List.map_cons, List.map_cons]

theorem lookup_membersToValue (key : String) (members : List (String × Json)) :
    (Json.membersToValue members).lookup (.str key) = (members.lookup key).map Json.toValue := by
  induction members with
  | nil => rfl
  | cons member rest inductionHypothesis =>
      obtain ⟨first, value⟩ := member
      rw [Json.membersToValue, List.lookup_cons, Json.lookup_cons_eq_ite, inductionHypothesis]
      by_cases same : key = first
      · simp [same]
      · have different : (Key.str key == Key.str first) = false := by simpa using same
        rw [different, if_neg same]

section

variable {standIn : Nat → Char} {text : String} {arguments : Arguments}

theorem readArguments_eq_ok_iff :
    Job.readArguments standIn text = .ok arguments ↔
      ∃ members, Json.read? (fill standIn text) = some (.obj members) ∧
        Json.membersToValue members = arguments := by
  unfold Job.readArguments
  split
  · rename_i unread
    simp [unread]
  · rename_i members read
    simp [read]
  · rename_i noObject read
    simp only [read, reduceCtorEq, false_iff, not_exists, not_and, Option.some.injEq]
    rintro members rfl
    exact absurd rfl (noObject members)

/-- A text of an object without repeated keys gives its members, whatever the text looks like. It
holds no surrogates, so nothing stands in for them. -/
theorem readArguments_of_isTextOf {members : List (String × Json)}
    (isText : Json.IsTextOf text (.obj members)) (distinct : (Json.obj members).HasDistinctKeys)
    (standIn : Nat → Char) :
    Job.readArguments standIn text = .ok (Json.membersToValue members) := by
  have read : Json.read? text = some (.obj members) := by
    rw [Json.read?_of_isTextOf isText, Json.merged_of_hasDistinctKeys distinct]
  rw [readArguments_eq_ok_iff, Json.Surrogate.fill_of_read? read standIn]
  exact ⟨members, read, rfl⟩

/-- Arguments come from an object in the text. A key that is repeated there has its first place and
its last value. -/
theorem exists_of_readArguments (ok : Job.readArguments standIn text = .ok arguments) :
    ∃ members : List (String × Json),
      Json.Token.pieces? (fill standIn text).toList = some (Json.obj members).tree.pieces ∧
        arguments.map Prod.fst = (members.map Prod.fst).eraseDups.map Key.str ∧
        ∀ key, arguments.lookup (.str key) =
          (members.reverse.lookup key).map fun value => value.merged.toValue := by
  obtain ⟨_, read, rfl⟩ := readArguments_eq_ok_iff.mp ok
  obtain ⟨source, pieces, merged⟩ := Json.read?_eq_some_iff.mp read
  cases source with
  | obj members =>
      rw [Json.merged, Json.obj.injEq] at merged
      subst merged
      refine ⟨members, pieces, ?_, fun key => ?_⟩
      · have keys := Json.keys_mergedMembers [] members
        simp only [List.map_nil, List.contains_nil, Bool.not_false, List.filter_true,
          List.nil_append] at keys
        rw [map_fst_membersToValue, keys]
      · rw [lookup_membersToValue, Json.lookup_mergedMembers]
        simp [Option.map_map, Function.comp_def]
  | _ => simp [Json.merged] at merged

theorem nodup_keys_of_readArguments (ok : Job.readArguments standIn text = .ok arguments) :
    (arguments.map Prod.fst).Nodup := by
  obtain ⟨members, read, rfl⟩ := readArguments_eq_ok_iff.mp ok
  cases Json.hasDistinctKeys_of_read? read with
  | obj _ distinct _ =>
      rw [map_fst_membersToValue]
      exact distinct.map fun _ _ same => Key.str.inj same

end

/-- What a call is compiled to names no argument twice if the call does not. -/
theorem nodup_arguments_of_compile {schema : GraphQL.Schema} {policy : SelectionPolicy}
    {tool : String} {arguments : Arguments} {operation : Operation}
    (compiled : schema.compile policy ⟨tool, arguments⟩ = .ok operation)
    (distinct : (arguments.map Prod.fst).Nodup) : (operation.arguments.map Prod.fst).Nodup := by
  obtain ⟨_, _, encoded, _, ok, rfl⟩ := GraphQL.Schema.compile_eq_ok_iff.mp compiled
  have keys := (Value.keepsEntries_of_encodeEntries ok).keys
  apply List.Nodup.of_map Key.str
  rw [List.map_map]
  exact (keys ▸ distinct : _)

/-! The operations of a call. -/

/-- A call by the operations that it is made of, where `given` is what its arguments are read as. -/
def compileCall (environment : Environment) (files : Files) (options : Options) (tool : String)
    (given : Except Failure Arguments) : Except Failure String := do
  let settings ← (Settings.ofEnvironment environment).mapError .settings
  let path := Job.schemaPathOf settings options.schema
  let schema ← (SchemaFile.load files path).mapError .load
  let arguments ← given
  let operation ← (schema.compile settings.policy ⟨tool, arguments⟩).mapError .call
  return operation.text

variable {environment : Environment} {files : Files} {arguments : List String} {options : Options}
  {tool : String} {given : Except Failure Arguments}

theorem compileCall_of_refused {error : SettingsError}
    (refused : Settings.ofEnvironment environment = .error error) :
    compileCall environment files options tool given = .error (.settings error) := by
  rw [compileCall, refused]
  rfl

theorem compileCall_of_load_error {settings : Settings} {error : LoadError}
    (loads : Loads environment files options settings (.error error)) :
    compileCall environment files options tool given = .error (.load error) := by
  obtain ⟨ok, failed⟩ := loads
  simp only [compileCall, ok, failed, Except.mapError, bind, Except.bind]

theorem compileCall_of_loads {settings : Settings} {schema : GraphQL.Schema}
    (loads : Loads environment files options settings (.ok schema)) (standIn : Nat → Char)
    (text : String) :
    compileCall environment files options tool (Job.readArguments standIn text) =
      (Job.ofOptions settings options).compileWith standIn schema tool text := by
  obtain ⟨ok, loaded⟩ := loads
  simp only [compileCall, ok, loaded, Except.mapError, bind, Except.bind]
  rfl

theorem tool?_of_given (called : options.call = .given tool) (named : tool ≠ "") :
    options.tool? = some tool := by
  simp [Options.tool?, called, OptionValue.text?, named]

/-- The text that the arguments of a call are read from. -/
def argumentsText (options : Options) : String :=
  options.arguments.text?.getD "{}"

theorem argumentsText_eq {text : String} (given : Job.argumentsOf options.arguments = some text) :
    argumentsText options = text := by
  unfold argumentsText
  cases stated : options.arguments with
  | absent => simpa [stated, Job.argumentsOf, OptionValue.text?] using given
  | dropped => simp [stated, Job.argumentsOf] at given
  | given => simpa [stated, Job.argumentsOf, OptionValue.text?] using given

/-- How a run with a call ends that does not break off: with the operation that both kinds of
stand-ins lead to, or with the first failure on the way. -/
inductive CallEnds (verbose : Bool) (own common : Except Failure String) (result : Result) : Prop
  | operation {operation : String} (compiled : own = .ok operation) (same : common = .ok operation)
      (output : result.output = operation ++ "\n") (written : result.written = [])
      (succeeds : result.Succeeds verbose)
  | failure {failure : Failure} (failed : own = .error failure)
      (fails : result.Fails verbose (Job.failureOf failure common))

/-- What stands in for surrogates has no say in a failure before the arguments are read. -/
theorem CallEnds.of_failed {verbose : Bool} {own common : Except Failure String}
    {failure : Failure} (failed : own = .error failure) (alsoFailed : common = .error failure)
    (log : List LogEntry) :
    CallEnds verbose own common ((Result.failed log failure).shown verbose) := by
  refine .failure failed ?_
  rw [alsoFailed, Job.failureOf_error]
  exact Result.fails_shown_failed verbose log failure

theorem exists_callEnds_of_calls {settings : Settings} {schema : GraphQL.Schema} {text : String}
    (calls : Calls environment files options settings schema tool text)
    (whole : ¬ BreaksOff environment files options) (log : List LogEntry) :
    ∃ result,
      Outcome.ofLogged options.verbose
          ((Job.ofOptions settings options).runCall schema log tool text) = .finished result ∧
        CallEnds options.verbose
          ((Job.ofOptions settings options).compileWith ownStandIn schema tool text)
          ((Job.ofOptions settings options).compileWith commonStandIn schema tool text) result := by
  have settles := Job.settles_settle
    ((Job.ofOptions settings options).compileWith ownStandIn schema tool text)
    ((Job.ofOptions settings options).compileWith commonStandIn schema tool text)
  rw [Job.runCall, Job.compile]
  generalize Job.settle _ _ = settled at settles
  cases settles with
  | noFields refused =>
      obtain ⟨⟨given, read⟩, ⟨field, rfl⟩, fieldless⟩ := Job.compileWith_eq_noFields_iff.mp refused
      exact absurd (.noFields calls read fieldless) whole
  | @failure failure failed =>
      exact ⟨_, rfl, .failure failed (Result.fails_shown_failed options.verbose log _)⟩
  | operation compiled same =>
      exact ⟨_, rfl, .operation compiled same Result.shown_output Result.shown_written
        (Result.succeeds_shown options.verbose rfl)⟩
  | unprintable compiled other => exact absurd (.unprintable calls compiled other) whole

/-- A run with a call that does not break off has the result of its operations. -/
theorem exists_result_of_ends {outcome : Outcome} (called : options.tool? = some tool)
    (ends : Ends environment files options outcome)
    (whole : ¬ BreaksOff environment files options) :
    ∃ result, outcome = .finished result ∧
      CallEnds options.verbose
        (compileCall environment files options tool
          (Job.readArguments ownStandIn (argumentsText options)))
        (compileCall environment files options tool
          (Job.readArguments commonStandIn (argumentsText options))) result := by
  cases ends with
  | settings refused =>
      exact ⟨_, rfl, .of_failed (compileCall_of_refused refused) (compileCall_of_refused refused) []⟩
  | invalidPath loads =>
      obtain ⟨rfl, invalid⟩ := load_eq_invalidPath_iff.mp loads.load
      exact absurd (.invalidPath loads.ok invalid) whole
  | undecodable loads =>
      obtain ⟨place, valid, found⟩ := load_eq_undecodable_iff.mp loads.load
      exact absurd (.undecodable loads.ok place valid found) whole
  | load loads =>
      exact ⟨_, rfl,
        .of_failed (compileCall_of_load_error loads) (compileCall_of_load_error loads) []⟩
  | argumentsMissing loads named dropped =>
      exact absurd (.argumentsMissing loads named dropped) whole
  | @call settings schema _ _ calls log =>
      obtain rfl := Option.some.inj (called.symm.trans calls.called)
      rw [argumentsText_eq calls.given, compileCall_of_loads calls.loads,
        compileCall_of_loads calls.loads]
      exact exists_callEnds_of_calls calls whole log
  | report _ uncalled =>
      rw [uncalled] at called
      contradiction

/-- A call that has one operation, whatever stands in for surrogates, does not break off. -/
theorem not_breaksOff_of_compileCall {text operation : String} (called : options.tool? = some tool)
    (given : Job.argumentsOf options.arguments = some text)
    (compiled : ∀ standIn ∈ [ownStandIn, commonStandIn],
      compileCall environment files options tool (Job.readArguments standIn text) =
        .ok operation) :
    ¬ BreaksOff environment files options := by
  have own := compiled ownStandIn (by simp)
  have common := compiled commonStandIn (by simp)
  have loaded {settings : Settings} {error : LoadError} :
      ¬ Loads environment files options settings (.error error) := by
    intro loads
    rw [compileCall_of_load_error loads] at own
    contradiction
  intro breaksOff
  cases breaksOff with
  | invalidPath ok invalid =>
      exact loaded ⟨ok, load_eq_invalidPath_iff.mpr ⟨rfl, invalid⟩⟩
  | undecodable ok place valid found =>
      exact loaded ⟨ok, load_eq_undecodable_iff.mpr ⟨place, valid, found⟩⟩
  | argumentsMissing _ _ dropped =>
      rw [argumentsOf_eq_none_iff.mpr dropped] at given
      contradiction
  | noFields calls read fieldless =>
      obtain rfl := Option.some.inj (called.symm.trans calls.called)
      obtain rfl := Option.some.inj (given.symm.trans calls.given)
      rw [compileCall_of_loads calls.loads,
        Job.compileWith_eq_noFields_iff.mpr ⟨⟨_, read⟩, ⟨_, rfl⟩, fieldless⟩] at own
      contradiction
  | unprintable calls compiled other =>
      obtain rfl := Option.some.inj (called.symm.trans calls.called)
      obtain rfl := Option.some.inj (given.symm.trans calls.given)
      rw [compileCall_of_loads calls.loads] at own common
      obtain rfl := Except.ok.inj (own.symm.trans compiled)
      exact other common
  | tools _ uncalled =>
      rw [uncalled] at called
      contradiction

/-- Files that hold one schema, in which nothing keeps a file from being written. -/
def filesOf (path source : String) : Files :=
  { read? := fun asked => if asked = .ofString path then some (.text source) else none
    schemaPath := .ofString "schema.graphql"
    obstacle? := fun _ => none }

/-- A repeated key, one of the two with an escape, and blanks between the pieces. -/
def sampleText : String :=
  String.ofList ('{' :: "\"x\": 1, \"y\": 2,\n\"\\u0078\": [null]".toList ++ ['}'])

end Toolsmith.CommandLine

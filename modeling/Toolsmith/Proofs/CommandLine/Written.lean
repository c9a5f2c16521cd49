import Toolsmith.Proofs.CommandLine.Run
import Toolsmith.Proofs.FileTree

/-!
Files after a run. A run writes only where nothing keeps it from writing, so what it has written is
read back from the same path.
-/

set_option autoImplicit false

namespace Toolsmith.CommandLine

variable {environment : Environment} {files : Files} {arguments : List String} {options : Options}

/-- Nothing was written, or one file whose path was free. -/
inductive WritesFreely (files : Files) : List (Path × String) → Prop
  | nothing : WritesFreely files []
  | file {path : Path} (free : files.obstacle? path = none) (text : String) :
      WritesFreely files [(path, text)]

theorem Job.written_of_runCall {job : Job} {schema : GraphQL.Schema} {log : List LogEntry}
    {tool text : String} {result : Result} (ran : job.runCall schema log tool text = .ok result) :
    result.written = [] := by
  obtain ⟨settled, _, ran⟩ := Except.bind_eq_ok_iff.mp ran
  cases settled with
  | error failure =>
      obtain rfl := Except.ok.inj ran
      rfl
  | ok operation =>
      obtain rfl := Except.ok.inj ran
      rfl

theorem Job.writesFreely_of_runReport {job : Job} {schema : GraphQL.Schema} {log : List LogEntry}
    {result : Result} (ran : job.runReport files schema log = .ok result) :
    WritesFreely files result.written := by
  obtain ⟨tools, _, ran⟩ := Except.bind_eq_ok_iff.mp ran
  obtain ⟨report, _, ran⟩ := Except.bind_eq_ok_iff.mp ran
  dsimp only at ran
  split at ran
  · obtain rfl := Except.ok.inj ran
    exact .nothing
  · split at ran
    · contradiction
    · rename_i free
      obtain rfl := Except.ok.inj ran
      exact .file free _

theorem exists_of_ofLogged {verbose : Bool} {logged : Except Breakdown Result} {result : Result}
    (finished : Outcome.ofLogged verbose logged = .finished result) :
    ∃ whole, logged = .ok whole ∧ whole.shown verbose = result := by
  cases logged with
  | error _ => contradiction
  | ok whole => exact ⟨whole, rfl, Outcome.finished.inj finished⟩

theorem writesFreely_of_ends {outcome : Outcome} (ends : Ends environment files options outcome)
    {result : Result} (finished : outcome = .finished result) :
    WritesFreely files result.written := by
  cases ends with
  | settings =>
      obtain rfl := Outcome.finished.inj finished
      rw [Result.shown_written]
      exact .nothing
  | invalidPath => contradiction
  | undecodable => contradiction
  | load =>
      obtain rfl := Outcome.finished.inj finished
      rw [Result.shown_written]
      exact .nothing
  | argumentsMissing => contradiction
  | call =>
      obtain ⟨whole, ran, rfl⟩ := exists_of_ofLogged finished
      rw [Result.shown_written, Job.written_of_runCall ran]
      exact .nothing
  | report =>
      obtain ⟨whole, ran, rfl⟩ := exists_of_ofLogged finished
      rw [Result.shown_written]
      exact Job.writesFreely_of_runReport ran

/-- What a run has written is there afterwards, unless the sample schema lies at its path. -/
theorem read?_of_mem_written {tree : FileTree} {schemaPath : Path} {result : Result}
    (requested : Request.ofArguments arguments = .run options)
    (ran : run environment (tree.toFiles schemaPath) arguments = .finished result)
    {path : Path} {text : String} (member : (path, text) ∈ result.written)
    (beside : path ≠ schemaPath) :
    ((tree.writeAll result.written).toFiles schemaPath).read? path = some (.text text) := by
  have freely := writesFreely_of_ends (ends_run environment (tree.toFiles schemaPath) requested) ran
  generalize result.written = written at member freely
  cases freely with
  | nothing => contradiction
  | file free content =>
      obtain ⟨rfl, rfl⟩ := Prod.mk.inj (List.mem_singleton.mp member)
      exact FileTree.read?_toFiles_of_written free beside text

end Toolsmith.CommandLine

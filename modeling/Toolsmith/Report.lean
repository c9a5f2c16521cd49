import Toolsmith.Text.Blank
import Toolsmith.Text.Line
import Toolsmith.Tool

/-!
Reports on tools: how many there are, what each is for, and a table of their parameters.
-/

set_option autoImplicit false

namespace Toolsmith

structure ReportRow where
  name : String
  summary : String
  parameters : Nat
  required : Nat
deriving DecidableEq, Repr

structure Report where
  rows : List ReportRow
  queryCount : Nat
  mutationCount : Nat
  nameWidth : Nat
deriving DecidableEq, Repr

/-- The first line of a description. -/
def summaryOf (description : String) : String :=
  match Text.lines (Text.trim description.toList) with
  | [] => ""
  | line :: _ => String.ofList (Text.trim line)

namespace Report

def rowOf (tool : Tool) : Except Uncountable ReportRow := do
  let parameters ← tool.parameterCount
  let required ← tool.requiredCount
  return { name := tool.name, summary := summaryOf tool.description, parameters, required }

/-- How many tools are named for a kind. -/
def countOf (kind : OperationKind) (tools : List Tool) : Nat :=
  tools.countP fun tool => (ToolName.text ⟨kind, ""⟩).toList.isPrefixOf tool.name.toList

/-- The names stand in a column that is wide enough for its heading and for all of them. -/
def widthOf (tools : List Tool) : Nat :=
  (tools.map fun tool => tool.name.length).foldl max 4

def ofTools (tools : List Tool) : Except Uncountable Report :=
  (tools.mapM rowOf).map fun rows =>
    { rows
      queryCount := countOf .query tools
      mutationCount := countOf .mutation tools
      nameWidth := widthOf tools }

def decimal (n : Nat) : String :=
  String.ofList (Nat.toDigits 10 n)

def padLeft (width : Nat) (text : String) : String :=
  "".pushn ' ' (width - text.length) ++ text

def padRight (width : Nat) (text : String) : String :=
  text.pushn ' ' (width - text.length)

def headLine (report : Report) : String :=
  "Loaded schema with " ++ decimal report.rows.length ++ " tools (" ++ decimal report.queryCount ++
    " queries, " ++ decimal report.mutationCount ++ " mutations)"

def rowLines (row : ReportRow) : List String :=
  ["  " ++ row.name,
    "    " ++ row.summary,
    "    Parameters: " ++ decimal row.parameters ++ " (" ++ decimal row.required ++ " required)",
    ""]

def tableRow (width : Nat) (row : ReportRow) : String :=
  padRight width row.name ++ "  " ++ padLeft 6 (decimal row.parameters) ++ "  " ++
    padLeft 8 (decimal row.required)

def tableLines (report : Report) : List String :=
  (padRight report.nameWidth "Tool" ++ "  Params  Required") ::
    ("".pushn '-' report.nameWidth ++ "  ------  --------") ::
    report.rows.map (tableRow report.nameWidth)

def lines (report : Report) : List String :=
  report.headLine :: "" :: report.rows.flatMap rowLines ++ report.tableLines

def text (report : Report) : String :=
  String.join (report.lines.map (· ++ "\n"))

end Report

end Toolsmith

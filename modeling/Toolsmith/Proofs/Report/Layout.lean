import Toolsmith.Proofs.Number.Digits
import Toolsmith.Proofs.Outcome
import Toolsmith.Proofs.Text.Blank
import Toolsmith.Proofs.Text.Line
import Toolsmith.Report

/-!
The layout of reports. A report is made of lines, and no name without a line feed and no description
whatever adds a line to them. The columns of the table are as wide as they have to be, so that what
a row shows is found in it again.
-/

set_option autoImplicit false

namespace Toolsmith

/-! What is counted. -/

/-- What is counted of a tool has a size wherever it is there. -/
def Tool.IsCountable (tool : Tool) : Prop :=
  ∀ key ∈ ["properties", "required"], ∀ value, tool.inputSchema.member? key = some value →
    ∃ size, value.size? = some size

/-- A tool as it is to be: what its input schema has for properties is an object, and what it has for
the required ones is an array. Either may be missing. -/
structure Tool.HasParameterSchema (tool : Tool) : Prop where
  properties : ∀ value, tool.inputSchema.member? "properties" = some value →
    ∃ members, value = .obj members
  required : ∀ value, tool.inputSchema.member? "required" = some value →
    ∃ items, value = .arr items

theorem Tool.HasParameterSchema.isCountable {tool : Tool} (shaped : tool.HasParameterSchema) :
    tool.IsCountable := by
  refine List.forall_mem_cons.mpr ⟨?_, List.forall_mem_singleton.mpr ?_⟩
  · intro value found
    obtain ⟨members, rfl⟩ := shaped.properties value found
    exact ⟨members.length, rfl⟩
  · intro value found
    obtain ⟨items, rfl⟩ := shaped.required value found
    exact ⟨items.length, rfl⟩

/-- A row shows a tool. -/
structure ReportRow.Shows (row : ReportRow) (tool : Tool) : Prop where
  name : row.name = tool.name
  summary : row.summary = summaryOf tool.description
  parameters : tool.parameterCount = .ok row.parameters
  required : tool.requiredCount = .ok row.required

theorem Tool.exists_count_iff {tool : Tool} {key : String} :
    (∃ count, tool.count key = .ok count) ↔
      ∀ value, tool.inputSchema.member? key = some value → ∃ size, value.size? = some size := by
  cases found : tool.inputSchema.member? key with
  | none =>
      simp only [count, found]
      exact iff_of_true ⟨0, rfl⟩ nofun
  | some value =>
      cases sized : value.size? with
      | none =>
          simp only [count, found, sized]
          refine iff_of_false (fun ⟨_, ok⟩ => nomatch ok) fun each => ?_
          obtain ⟨size, known⟩ := each value rfl
          rw [sized] at known
          contradiction
      | some size =>
          simp only [count, found, sized]
          refine iff_of_true ⟨size, rfl⟩ fun other same => ?_
          obtain rfl := Option.some.inj same
          exact ⟨size, sized⟩

namespace Report

theorem rowOf_eq_ok_iff {tool : Tool} {row : ReportRow} :
    rowOf tool = .ok row ↔ row.Shows tool := by
  simp only [rowOf, Except.bind_eq_ok_iff]
  constructor
  · rintro ⟨parameters, parametersOk, required, requiredOk, made⟩
    obtain rfl := Except.ok.inj made
    exact ⟨rfl, rfl, parametersOk, requiredOk⟩
  · obtain ⟨name, summary, parameters, required⟩ := row
    rintro ⟨rfl, rfl, parametersOk, requiredOk⟩
    exact ⟨parameters, parametersOk, required, requiredOk, rfl⟩

theorem exists_rowOf_iff {tool : Tool} : (∃ row, rowOf tool = .ok row) ↔ tool.IsCountable := by
  rw [Tool.IsCountable, List.forall_mem_cons, List.forall_mem_singleton, ← Tool.exists_count_iff,
    ← Tool.exists_count_iff]
  simp only [rowOf, Except.bind_eq_ok_iff]
  constructor
  · rintro ⟨_, parameters, parametersOk, required, requiredOk, _⟩
    exact ⟨⟨parameters, parametersOk⟩, ⟨required, requiredOk⟩⟩
  · rintro ⟨⟨parameters, parametersOk⟩, ⟨required, requiredOk⟩⟩
    exact ⟨_, parameters, parametersOk, required, requiredOk, rfl⟩

theorem exists_ofTools_iff {tools : List Tool} :
    (∃ report, ofTools tools = .ok report) ↔ ∀ tool ∈ tools, tool.IsCountable := by
  simp only [← exists_rowOf_iff, ← Except.exists_mapM_eq_ok_iff, ofTools, Except.map_eq_ok_iff]
  constructor
  · rintro ⟨_, rows, ok, _⟩
    exact ⟨rows, ok⟩
  · rintro ⟨rows, ok⟩
    exact ⟨_, rows, ok, rfl⟩

/-! Texts that hold no line feed. -/

end Report

/-- What is shown of a description is one line. -/
theorem not_isLineBreak_of_mem_summaryOf (description : String) :
    ∀ c ∈ (summaryOf description).toList, ¬ Text.isLineBreak c = true := by
  have unbroken := Text.not_isLineBreak_of_mem_lines (Text.trim description.toList)
  unfold summaryOf
  split
  · exact List.forall_mem_nil _
  · rename_i line rest parts
    rw [parts] at unbroken
    rw [String.toList_ofList]
    intro c member
    exact unbroken line List.mem_cons_self c ((Text.infix_trimBy _ line).subset member)

theorem lineFeed_notMem_summaryOf (description : String) :
    '\n' ∉ (summaryOf description).toList :=
  fun member => not_isLineBreak_of_mem_summaryOf description '\n' member rfl

/-- What is shown of a description is a piece of it as it stands. -/
theorem infix_summaryOf (description : String) :
    (summaryOf description).toList <:+: description.toList := by
  unfold summaryOf
  split
  · exact List.nil_infix
  · rename_i line rest parts
    rw [String.toList_ofList]
    calc Text.trim line
      _ <:+: line := Text.infix_trimBy _ line
      _ <:+: Text.trim description.toList := (Text.prefix_of_lines_eq_cons parts).isInfix
      _ <:+: description.toList := Text.infix_trimBy _ _

namespace Report

theorem toList_decimal (n : Nat) : (decimal n).toList = Nat.toDigits 10 n :=
  String.toList_ofList

theorem not_mem_decimal {n : Nat} {c : Char} (noDigit : c.isDigit = false) :
    c ∉ (decimal n).toList := by
  rw [toList_decimal]
  intro member
  rw [Decimal.isDigit_toDigits member] at noDigit
  contradiction

/-! Columns. -/

theorem toList_pushn (text : String) (c : Char) (count : Nat) :
    (text.pushn c count).toList = text.toList ++ List.replicate count c := by
  induction count with
  | zero => rw [List.replicate_zero, List.append_nil]; rfl
  | succ count inductionHypothesis =>
      change ((text.pushn c count).push c).toList = _
      rw [String.toList_push, inductionHypothesis, List.append_assoc, ← List.replicate_succ']

theorem toList_padRight (width : Nat) (text : String) :
    (padRight width text).toList = text.toList ++ List.replicate (width - text.length) ' ' :=
  toList_pushn text ' ' _

theorem toList_padLeft (width : Nat) (text : String) :
    (padLeft width text).toList = List.replicate (width - text.length) ' ' ++ text.toList := by
  rw [padLeft, String.toList_append, toList_pushn]
  rfl

theorem length_padRight {width : Nat} {text : String} (fits : text.length ≤ width) :
    (padRight width text).length = width := by
  rw [padRight, String.length_pushn]
  omega

theorem length_padLeft {width : Nat} {text : String} (fits : text.length ≤ width) :
    (padLeft width text).length = width := by
  rw [padLeft, String.length_append, String.length_pushn, String.length_empty]
  omega

/-- Spaces behind a text are among those that are dropped at its end. -/
theorem rdropWhile_padRight (width : Nat) (text : String) :
    (padRight width text).toList.rdropWhile (· = ' ') = text.toList.rdropWhile (· = ' ') := by
  rw [toList_padRight]
  apply Text.rdropWhile_append
  intro c member
  exact decide_eq_true (List.eq_of_mem_replicate member)

theorem dropWhile_padLeft (width n : Nat) :
    (padLeft width (decimal n)).toList.dropWhile (· = ' ') = Nat.toDigits 10 n := by
  rw [toList_padLeft, toList_decimal, List.dropWhile_append_of_pos]
  · cases digits : Nat.toDigits 10 n with
    | nil => rfl
    | cons first rest =>
        have digit := Decimal.isDigit_toDigits (n := n) (digits ▸ List.mem_cons_self)
        refine List.dropWhile_cons_of_neg ?_
        rintro space
        rw [decide_eq_true_eq.mp space] at digit
        contradiction
  · intro c member
    simpa using (List.mem_replicate.mp member).2

/-- A decimal in a column is read by what is left when the spaces are dropped. -/
theorem read_padLeft (width n : Nat) :
    Nat.ofDigitChars 10 ((padLeft width (decimal n)).toList.dropWhile (· = ' ')) 0 = n := by
  rw [dropWhile_padLeft, Nat.ofDigitChars_ten_toDigits]

theorem length_decimal_le_iff {n count : Nat} (positive : 0 < count) :
    (decimal n).length ≤ count ↔ n < 10 ^ count := by
  rw [decimal, String.length_ofList]
  exact Decimal.digitCount_le_iff positive

/-- A width is enough for the heading of the names and for all names, and no more. -/
structure Fits (width : Nat) (tools : List Tool) : Prop where
  heading : 4 ≤ width
  names : ∀ tool ∈ tools, tool.name.length ≤ width
  least : width = 4 ∨ ∃ tool ∈ tools, tool.name.length = width

theorem foldl_max_spec (start : Nat) (sizes : List Nat) :
    start ≤ sizes.foldl max start ∧ (∀ size ∈ sizes, size ≤ sizes.foldl max start) ∧
      (sizes.foldl max start = start ∨ sizes.foldl max start ∈ sizes) := by
  induction sizes generalizing start with
  | nil => exact ⟨le_rfl, nofun, .inl rfl⟩
  | cons size rest inductionHypothesis =>
      obtain ⟨above, each, attained⟩ := inductionHypothesis (max start size)
      refine ⟨le_of_max_le_left above, ?_, ?_⟩
      · exact List.forall_mem_cons.mpr ⟨le_of_max_le_right above, each⟩
      · rw [List.foldl_cons, List.mem_cons]
        rcases attained with same | later
        · rw [same]
          rcases max_choice start size with first | second
          · exact .inl first
          · exact .inr (.inl second)
        · exact .inr (.inr later)

theorem fits_widthOf (tools : List Tool) : Fits (widthOf tools) tools := by
  obtain ⟨heading, names, least⟩ := foldl_max_spec 4 (tools.map fun tool => tool.name.length)
  exact ⟨heading, List.forall_mem_map.mp names, least.imp_right List.mem_map.mp⟩

/-- What is read of a tool at the columns of a line. Of its name, spaces at the end are lost. -/
structure ReadsAs (width : Nat) (line : String) (tool : Tool) : Prop where
  name : (line.toList.take width).rdropWhile (· = ' ') = tool.name.toList.rdropWhile (· = ' ')
  parameters : tool.parameterCount =
    .ok (Nat.ofDigitChars 10
      (((line.toList.drop (width + 2)).take 6).dropWhile (· = ' ')) 0)
  required : tool.requiredCount =
    .ok (Nat.ofDigitChars 10
      (((line.toList.drop (width + 10)).take 8).dropWhile (· = ' ')) 0)

/-- Counts that do not leave their columns. -/
def IsNarrow (row : ReportRow) : Prop :=
  row.parameters < 10 ^ 6 ∧ row.required < 10 ^ 8

section

variable {width : Nat} {row : ReportRow} {tool : Tool}

theorem length_tableRow (fits : row.name.length ≤ width) (narrow : IsNarrow row) :
    (tableRow width row).length = width + 18 := by
  have parameters := length_padLeft ((length_decimal_le_iff (by decide)).mpr narrow.1)
  have required := length_padLeft ((length_decimal_le_iff (by decide)).mpr narrow.2)
  simp only [tableRow, String.length_append, length_padRight fits, parameters, required]
  rfl

theorem prefix_tableRow (width : Nat) (row : ReportRow) :
    (padRight width row.name).toList <+: (tableRow width row).toList := by
  simp only [tableRow, String.toList_append, List.append_assoc]
  exact List.prefix_append _ _

theorem readsAs_tableRow (shows : row.Shows tool) (fits : row.name.length ≤ width)
    (narrow : IsNarrow row) : ReadsAs width (tableRow width row) tool := by
  have first : (padRight width row.name).toList.length = width := by
    rw [String.length_toList, length_padRight fits]
  have second : (padLeft 6 (decimal row.parameters)).toList.length = 6 := by
    rw [String.length_toList, length_padLeft ((length_decimal_le_iff (by decide)).mpr narrow.1)]
  have third : (padLeft 8 (decimal row.required)).toList.length = 8 := by
    rw [String.length_toList, length_padLeft ((length_decimal_le_iff (by decide)).mpr narrow.2)]
  have line : (tableRow width row).toList =
      (padRight width row.name).toList ++ ([' ', ' '] ++
        ((padLeft 6 (decimal row.parameters)).toList ++ ([' ', ' '] ++
          (padLeft 8 (decimal row.required)).toList))) := by
    simp only [tableRow, String.toList_append, List.append_assoc]
    rfl
  have afterName : (tableRow width row).toList.drop (width + 2) =
      (padLeft 6 (decimal row.parameters)).toList ++ ([' ', ' '] ++
        (padLeft 8 (decimal row.required)).toList) := by
    rw [line, ← List.append_assoc, List.drop_left' (by simp [first])]
  have afterParameters : (tableRow width row).toList.drop (width + 10) =
      (padLeft 8 (decimal row.required)).toList := by
    rw [← Nat.add_assoc width 2 8, ← List.drop_drop, afterName, ← List.append_assoc,
      List.drop_left' (by simp [second])]
  constructor
  · rw [line, List.take_left' first, rdropWhile_padRight, shows.name]
  · rw [afterName, List.take_left' second, read_padLeft, shows.parameters]
  · rw [afterParameters, List.take_of_length_le (by rw [third]), read_padLeft, shows.required]

end

/-! Lines. -/

theorem lineFeed_notMem_headLine (report : Report) : '\n' ∉ report.headLine.toList := by
  unfold headLine
  simp only [String.toList_append, List.mem_append, not_or]
  exact ⟨⟨⟨⟨⟨⟨by decide, not_mem_decimal rfl⟩, by decide⟩, not_mem_decimal rfl⟩, by decide⟩,
    not_mem_decimal rfl⟩, by decide⟩

theorem lineFeed_notMem_pushn {text : String} (own : '\n' ∉ text.toList) {c : Char}
    (other : '\n' ≠ c) (count : Nat) : '\n' ∉ (text.pushn c count).toList := by
  rw [toList_pushn, List.mem_append, not_or]
  exact ⟨own, fun member => other (List.eq_of_mem_replicate member)⟩

theorem lineFeed_notMem_padLeft (width n : Nat) :
    '\n' ∉ (padLeft width (decimal n)).toList := by
  rw [padLeft, String.toList_append, List.mem_append, not_or]
  exact ⟨lineFeed_notMem_pushn (by decide) (by decide) _, not_mem_decimal rfl⟩

theorem lineFeed_notMem_rowLines {row : ReportRow} (name : '\n' ∉ row.name.toList)
    (summary : '\n' ∉ row.summary.toList) : ∀ line ∈ rowLines row, '\n' ∉ line.toList := by
  simp only [rowLines, List.forall_mem_cons, String.toList_append, List.mem_append, not_or]
  exact ⟨⟨by decide, name⟩, ⟨by decide, summary⟩,
    ⟨⟨⟨⟨by decide, not_mem_decimal rfl⟩, by decide⟩, not_mem_decimal rfl⟩, by decide⟩, by decide⟩

theorem lineFeed_notMem_tableRow {width : Nat} {row : ReportRow} (name : '\n' ∉ row.name.toList) :
    '\n' ∉ (tableRow width row).toList := by
  simp only [tableRow, String.toList_append, List.mem_append, not_or]
  exact ⟨⟨⟨⟨lineFeed_notMem_pushn name (by decide) _, by decide⟩, lineFeed_notMem_padLeft 6 _⟩,
    by decide⟩, lineFeed_notMem_padLeft 8 _⟩

/-- Where no name and no summary has a line feed, no line has one. -/
theorem lineFeed_notMem_lines {report : Report}
    (names : ∀ row ∈ report.rows, '\n' ∉ row.name.toList)
    (summaries : ∀ row ∈ report.rows, '\n' ∉ row.summary.toList) :
    ∀ line ∈ report.lines, '\n' ∉ line.toList := by
  have rule : '\n' ∉ ("".pushn '-' report.nameWidth ++ "  ------  --------").toList := by
    rw [String.toList_append, List.mem_append, not_or]
    exact ⟨lineFeed_notMem_pushn (by decide) (by decide) _, by decide⟩
  have heading : '\n' ∉ (padRight report.nameWidth "Tool" ++ "  Params  Required").toList := by
    rw [String.toList_append, List.mem_append, not_or]
    exact ⟨lineFeed_notMem_pushn (by decide) (by decide) _, by decide⟩
  simp only [lines, tableLines, List.cons_append, List.forall_mem_cons, List.forall_mem_append,
    List.forall_mem_map, List.mem_flatMap]
  refine ⟨lineFeed_notMem_headLine report, by decide, ?_, heading, rule, fun row member =>
    lineFeed_notMem_tableRow (names row member)⟩
  rintro line ⟨row, member, included⟩
  exact lineFeed_notMem_rowLines (names row member) (summaries row member) line included

theorem length_flatMap_rowLines (rows : List ReportRow) :
    (rows.flatMap rowLines).length = 4 * rows.length := by
  induction rows with
  | nil => rfl
  | cons row rest inductionHypothesis =>
      have four : (rowLines row).length = 4 := rfl
      rw [List.flatMap_cons, List.length_append, inductionHypothesis, four, List.length_cons]
      omega

theorem length_lines (report : Report) : report.lines.length = 5 * report.rows.length + 4 := by
  simp only [lines, tableLines, List.length_append, List.length_cons, List.length_map,
    length_flatMap_rowLines]
  omega

theorem drop_lines (report : Report) :
    report.lines.drop (4 * report.rows.length + 2) = report.tableLines := by
  have above : (report.headLine :: "" :: report.rows.flatMap rowLines).length =
      4 * report.rows.length + 2 := by
    rw [List.length_cons, List.length_cons, length_flatMap_rowLines]
  rw [lines, List.drop_left' above]

theorem length_of_mem_tableLines {report : Report} (heading : 4 ≤ report.nameWidth)
    (names : ∀ row ∈ report.rows, row.name.length ≤ report.nameWidth)
    (narrow : ∀ row ∈ report.rows, IsNarrow row) :
    ∀ line ∈ report.tableLines, line.length = report.nameWidth + 18 := by
  refine List.forall_mem_cons.mpr ⟨?_, List.forall_mem_cons.mpr ⟨?_, ?_⟩⟩
  · rw [String.length_append, length_padRight heading]
    rfl
  · rw [String.length_append, String.length_pushn, String.length_empty, Nat.zero_add]
    rfl
  · exact List.forall_mem_map.mpr fun row member =>
      length_tableRow (names row member) (narrow row member)

/-- How a report is written in lines. The last of them are the rows of the table. -/
structure IsLaidOut (report : Report) (tools : List Tool) (lines table : List String) : Prop where
  rows : List.Forall₂ (fun tool row => row.Shows tool) tools report.rows
  width : Fits report.nameWidth tools
  written : report.text = String.join (lines.map (· ++ "\n"))
  count : lines.length = 5 * tools.length + 4
  unbroken : ∀ line ∈ lines, '\n' ∉ line.toList
  /-- Of a description a piece is shown as it stands. -/
  verbatim : List.Forall₂ (fun tool row => row.summary.toList <:+: tool.description.toList)
    tools report.rows
  /-- Names and summaries stand in the lines as they are. -/
  parts : lines =
    ["Loaded schema with " ++ decimal tools.length ++ " tools (" ++
        decimal (countOf .query tools) ++ " queries, " ++
        decimal (countOf .mutation tools) ++ " mutations)",
      ""] ++
      report.rows.flatMap (fun row =>
        ["  " ++ row.name,
          "    " ++ row.summary,
          "    Parameters: " ++ decimal row.parameters ++ " (" ++
            decimal row.required ++ " required)",
          ""]) ++
      [padRight report.nameWidth "Tool" ++ "  Params  Required",
        "".pushn '-' report.nameWidth ++ "  ------  --------"] ++
      table
  names : List.Forall₂ (fun tool line =>
    (padRight report.nameWidth tool.name).toList <+: line.toList) tools table
  /-- Counts of few digits keep the columns where they are. -/
  columns : (∀ row ∈ report.rows, IsNarrow row) →
    (∀ line ∈ lines.drop (4 * tools.length + 2), line.length = report.nameWidth + 18) ∧
      List.Forall₂ (fun tool line => ReadsAs report.nameWidth line tool) tools table

/-- A report has a row for each tool and takes all else from the names. -/
theorem rows_of_ofTools {tools : List Tool} {report : Report} (ok : ofTools tools = .ok report) :
    List.Forall₂ (fun tool row => row.Shows tool) tools report.rows ∧
      (∀ row ∈ report.rows, ∃ tool ∈ tools, row.Shows tool) ∧
      report.queryCount = countOf .query tools ∧ report.mutationCount = countOf .mutation tools ∧
      report.nameWidth = widthOf tools := by
  obtain ⟨rows, rowsOk, rfl⟩ := Except.map_eq_ok_iff.mp ok
  refine ⟨?_, fun row member => ?_, rfl, rfl, rfl⟩
  · exact (Except.mapM_eq_ok_iff.mp rowsOk).imp fun _ _ made => rowOf_eq_ok_iff.mp made
  · obtain ⟨tool, included, made⟩ := Except.exists_of_mem_mapM rowsOk member
    exact ⟨tool, included, rowOf_eq_ok_iff.mp made⟩

theorem isLaidOut_of_ofTools {tools : List Tool}
    (named : ∀ tool ∈ tools, '\n' ∉ tool.name.toList) {report : Report}
    (ok : ofTools tools = .ok report) :
    report.IsLaidOut tools report.lines (report.rows.map (tableRow report.nameWidth)) := by
  obtain ⟨shown, source, queries, mutations, width⟩ := rows_of_ofTools ok
  have fits : Fits report.nameWidth tools := width ▸ fits_widthOf tools
  have names : ∀ row ∈ report.rows,
      row.name.length ≤ report.nameWidth ∧ '\n' ∉ row.name.toList := by
    intro row member
    obtain ⟨tool, included, shows⟩ := source row member
    rw [shows.name]
    exact ⟨fits.names tool included, named tool included⟩
  have summaries : ∀ row ∈ report.rows, '\n' ∉ row.summary.toList := by
    intro row member
    obtain ⟨tool, _, shows⟩ := source row member
    rw [shows.summary]
    exact lineFeed_notMem_summaryOf tool.description
  refine ⟨shown, fits, rfl, ?_, ?_, ?_, ?_, ?_, fun narrow => ⟨?_, ?_⟩⟩
  · rw [length_lines, shown.length_eq]
  · exact lineFeed_notMem_lines (fun row member => (names row member).2) summaries
  · exact shown.imp fun tool row shows => shows.summary ▸ infix_summaryOf tool.description
  · rw [shown.length_eq, ← queries, ← mutations]
    simp only [lines, List.append_assoc]
    rfl
  · rw [List.forall₂_map_right_iff]
    exact shown.imp fun tool row shows => shows.name ▸ prefix_tableRow _ row
  · rw [shown.length_eq, drop_lines]
    exact length_of_mem_tableLines fits.heading (fun row member => (names row member).1) narrow
  · rw [List.forall₂_map_right_iff]
    have each := (List.forall₂_and_left _ _).mpr
      ⟨fun row member => And.intro (names row member).1 (narrow row member), shown.flip⟩
    exact (each.imp fun row tool own => readsAs_tableRow own.2 own.1.1 own.1.2).flip

/-- Tools as they are to be have a report, and so have all tools whose input schemas hold something
that can be counted, but no others. A report is laid out in lines: two for the counts, four for each
tool, and a table with a row for each tool. Whatever names without line feeds and descriptions hold,
it neither breaks a line nor is it changed, and the table tells the names and the counts again. -/
theorem report_layout {tools : List Tool} (named : ∀ tool ∈ tools, '\n' ∉ tool.name.toList) :
    ((∀ tool ∈ tools, tool.HasParameterSchema) → ∃ report, ofTools tools = .ok report) ∧
      ((∃ report, ofTools tools = .ok report) ↔ ∀ tool ∈ tools, tool.IsCountable) ∧
      ∀ report, ofTools tools = .ok report →
        ∃ lines table, report.IsLaidOut tools lines table := by
  refine ⟨fun shaped => ?_, exists_ofTools_iff, fun _ ok => ⟨_, _, isLaidOut_of_ofTools named ok⟩⟩
  exact exists_ofTools_iff.mpr fun tool member => (shaped tool member).isCountable

/-- What looks like a template or like markup is a summary like any other. -/
theorem report_layout_sample :
    ∃ tools report lines table,
      tools =
        [⟨"a ", "\x85<b>{{ x }}</b>\r\nmore",
            .obj [("properties", .obj [("x", .obj [])]), ("required", .arr [.str "x"])], rfl⟩,
          ⟨"query-tool_", "", .obj [], rfl⟩] ∧
        ofTools tools = .ok report ∧ report.IsLaidOut tools lines table ∧ lines.length = 14 ∧
        "    <b>{{ x }}</b>" ∈ lines ∧ "    Parameters: 1 (1 required)" ∈ lines := by
  let markup : Tool :=
    ⟨"a ", "\x85<b>{{ x }}</b>\r\nmore",
      .obj [("properties", .obj [("x", .obj [])]), ("required", .arr [.str "x"])], rfl⟩
  let bare : Tool := ⟨"query-tool_", "", .obj [], rfl⟩
  have named : ∀ tool ∈ [markup, bare], '\n' ∉ tool.name.toList := by decide
  have shaped : ∀ tool ∈ [markup, bare], tool.HasParameterSchema := by
    refine List.forall_mem_cons.mpr ⟨?_, List.forall_mem_singleton.mpr ⟨nofun, nofun⟩⟩
    constructor
    · rintro value ⟨⟩
      exact ⟨_, rfl⟩
    · rintro value ⟨⟩
      exact ⟨_, rfl⟩
  obtain ⟨report, ok⟩ := (report_layout named).1 shaped
  obtain ⟨lines, table, layout⟩ := (report_layout named).2.2 report ok
  refine ⟨_, report, lines, table, rfl, ok, layout, layout.count, ?_⟩
  obtain ⟨row, _, shows, _, same⟩ := List.forall₂_cons_left_iff.mp layout.rows
  have summary : row.summary = "<b>{{ x }}</b>" := by
    rw [shows.summary]
    decide +kernel
  have parameters : row.parameters = 1 := (Except.ok.inj shows.parameters).symm
  have required : row.required = 1 := (Except.ok.inj shows.required).symm
  have one : decimal 1 = "1" := rfl
  rw [layout.parts, same]
  simp [summary, parameters, required, one]

/-- What an input schema has for properties may also be nothing that can be counted. -/
example :
    ofTools [⟨"query-tool_x", "d", .obj [("properties", .null)], rfl⟩] =
      .error ⟨"query-tool_x", "properties"⟩ := rfl

end Report

end Toolsmith

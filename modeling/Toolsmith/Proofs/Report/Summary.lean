import Toolsmith.Proofs.Report.Layout
import Toolsmith.Proofs.Text.Blank

/-!
What a report shows of a description. The description is trimmed before it is divided into lines,
and its first line once more; since all ends of lines are blank, this gives the first line that is
not blank, as if the description were divided as it stands.
-/

set_option autoImplicit false

namespace Toolsmith

namespace Text

/-- The first line that is not blank, trimmed; nothing if all lines are blank. -/
def firstShown (lines : List (List Char)) : List Char :=
  ((lines.map trim).find? (· ≠ [])).getD []

theorem firstShown_cons_of_blank {line : List Char} (blank : trim line = [])
    (others : List (List Char)) : firstShown (line :: others) = firstShown others := by
  rw [firstShown, List.map_cons, List.find?_cons_of_neg (by simpa using blank), firstShown]

theorem firstShown_cons {line : List Char} (shown : trim line ≠ []) (others : List (List Char)) :
    firstShown (line :: others) = trim line := by
  rw [firstShown, List.map_cons, List.find?_cons_of_pos (by simpa using shown), Option.getD_some]

theorem firstShown_eq_nil_iff {lines : List (List Char)} :
    firstShown lines = [] ↔ ∀ line ∈ lines, trim line = [] := by
  induction lines with
  | nil => exact iff_of_true rfl (List.forall_mem_nil _)
  | cons line others inductionHypothesis =>
      rw [List.forall_mem_cons]
      by_cases blank : trim line = []
      · rw [firstShown_cons_of_blank blank, inductionHypothesis, and_iff_right blank]
      · rw [firstShown_cons blank]
        exact iff_of_false blank fun all => blank all.1

theorem isBlank_of_isLineBreak {c : Char} (isBreak : isLineBreak c = true) : isBlank c = true := by
  simp only [isLineBreak, isBlank, isWhitespace, Bool.or_eq_true, Bool.and_eq_true,
    decide_eq_true_eq, List.contains_eq_mem, List.mem_cons, List.not_mem_nil, or_false] at isBreak ⊢
  omega

theorem firstShown_consFirst {c : Char} (blank : isBlank c = true) (lines : List (List Char)) :
    firstShown (consFirst c lines) = firstShown lines := by
  have dropped (line : List Char) : trim ([c] ++ line) = trim line :=
    trimBy_append_left (List.forall_mem_singleton.mpr blank)
  cases lines with
  | nil => exact firstShown_cons_of_blank (dropped []) []
  | cons line others =>
      rw [consFirst, firstShown, firstShown, List.map_cons, List.map_cons, ← dropped line]
      rfl

/-- A blank in front of a text has no say in what is shown, whether it ends a line or not. -/
theorem firstShown_lines_cons {c : Char} (blank : isBlank c = true) (rest : List Char) :
    firstShown (lines (c :: rest)) = firstShown (lines rest) := by
  by_cases isBreak : isLineBreak c = true
  · by_cases paired : c = '\r' ∧ rest.head? = some '\n'
    · -- The line feed that is left ends the same line.
      obtain ⟨rfl, lineFeed⟩ := paired
      obtain ⟨behind, rfl⟩ := List.head?_eq_some_iff.mp lineFeed
      have both := @lines_end ['\r', '\n'] behind .pair nofun
      have alone := @lines_end ['\n'] behind (.single rfl) nofun
      exact congrArg firstShown (both.trans alone.symm)
    · have ended := lines_end (.single isBreak) fun same lineFeed =>
        paired ⟨List.singleton_inj.mp same, lineFeed⟩
      rw [← List.singleton_append, ended]
      exact firstShown_cons_of_blank trim_nil _
  · rw [lines_cons (Bool.not_eq_true _ ▸ isBreak)]
    exact firstShown_consFirst blank _

theorem firstShown_lines_append {front : List Char} (blank : ∀ c ∈ front, isBlank c = true)
    (text : List Char) : firstShown (lines (front ++ text)) = firstShown (lines text) := by
  induction front with
  | nil => rfl
  | cons c rest inductionHypothesis =>
      obtain ⟨first, others⟩ := List.forall_mem_cons.mp blank
      rw [List.cons_append, firstShown_lines_cons first, inductionHypothesis others]

/-- A text that does not begin with a blank shows its first line. -/
theorem firstShown_lines {text : List Char} (some : text ≠ [])
    (begins : ∀ c ∈ text.head?, isBlank c = false) :
    firstShown (lines text) = trim (text.takeWhile fun c => !isLineBreak c) := by
  obtain ⟨others, parts⟩ := List.head?_eq_some_iff.mp ((divides_lines text).head?_eq some)
  rw [parts]
  apply firstShown_cons
  intro blank
  obtain ⟨c, rest, rfl⟩ := List.exists_cons_of_ne_nil some
  have noBlank := begins c rfl
  have noBreak : isLineBreak c = false := by
    by_contra isBreak
    rw [isBlank_of_isLineBreak (Bool.not_eq_false _ ▸ isBreak)] at noBlank
    contradiction
  rw [List.takeWhile_cons_of_pos (by rw [noBreak]; rfl)] at blank
  rw [trimBy_eq_nil_iff.mp blank c List.mem_cons_self] at noBlank
  contradiction

/-- Blanks behind a text have no say in what is shown of its first line, wherever that ends. -/
theorem trim_takeWhile_append {back : List Char} (blank : ∀ c ∈ back, isBlank c = true)
    (text : List Char) (inside : Char → Bool) :
    trim ((text ++ back).takeWhile inside) = trim (text.takeWhile inside) := by
  rw [List.takeWhile_append]
  split
  · rename_i whole
    have kept : text.takeWhile inside = text :=
      (List.takeWhile_prefix inside).eq_of_length whole
    rw [kept]
    apply trimBy_append_right
    exact fun c member => blank c ((List.takeWhile_prefix inside).subset member)
  · rfl

end Text

theorem toList_summaryOf (description : String) :
    (summaryOf description).toList =
      Text.trim ((Text.lines (Text.trim description.toList)).headD []) := by
  unfold summaryOf
  split
  · rename_i noLines
    rw [noLines]
    rfl
  · rename_i line others parts
    rw [parts, String.toList_ofList, List.headD_cons]

theorem toList_summaryOf_eq_firstShown (description : String) :
    (summaryOf description).toList = Text.firstShown (Text.lines description.toList) := by
  obtain ⟨front, back, whole, before, behind⟩ :=
    Text.exists_eq_trimBy Text.isBlank description.toList
  have trimmed := Text.isTrimmed_trimBy Text.isBlank description.toList
  change description.toList = front ++ Text.trim description.toList ++ back at whole
  change Text.IsTrimmed Text.isBlank (Text.trim description.toList) at trimmed
  rw [toList_summaryOf]
  generalize Text.trim description.toList = core at whole trimmed ⊢
  rw [whole, List.append_assoc, Text.firstShown_lines_append before]
  cases core with
  | nil =>
      have shown := Text.firstShown_lines_append behind []
      rw [List.append_nil] at shown
      exact shown.symm
  | cons c rest =>
      have some : c :: rest ≠ [] := List.cons_ne_nil c rest
      have first := (Text.divides_lines (c :: rest)).head?_eq some
      rw [List.headD_eq_head?_getD, first, Option.getD_some,
        Text.firstShown_lines (List.append_ne_nil_of_left_ne_nil some back) trimmed.first,
        Text.trim_takeWhile_append behind]

/-- What a report shows of a description is its first line that is not blank, trimmed, and nothing
exactly when all its lines are blank. So it is one line, and neither begins nor ends with a
blank. -/
theorem summary_is_first_line (description : String) :
    (∃! lines, Text.Divides description.toList lines) ∧
      (∀ lines, Text.Divides description.toList lines →
        (summaryOf description).toList = Text.firstShown lines ∧
          (summaryOf description = "" ↔ ∀ line ∈ lines, ∀ c ∈ line, Text.isBlank c = true)) ∧
      (∀ c ∈ (summaryOf description).toList, Text.isLineBreak c = false) ∧
      Text.IsTrimmed Text.isBlank (summaryOf description).toList ∧
      ∀ tools report, Report.ofTools tools = .ok report →
        report.rows.map (·.summary) = tools.map fun tool => summaryOf tool.description := by
  have shown := toList_summaryOf_eq_firstShown description
  refine ⟨⟨_, Text.divides_lines _, fun _ => ?_⟩, fun lines divides => ?_, ?_, ?_, ?_⟩
  · exact fun divides => (Text.divides_iff.mp divides).symm
  · obtain rfl := Text.divides_iff.mp divides
    refine ⟨shown, ?_⟩
    rw [← String.toList_eq_nil_iff, shown, Text.firstShown_eq_nil_iff]
    exact forall₂_congr fun line _ => Text.trimBy_eq_nil_iff
  · intro c inside
    exact Bool.eq_false_of_not_eq_true (not_isLineBreak_of_mem_summaryOf description c inside)
  · rw [toList_summaryOf]
    exact Text.isTrimmed_trimBy _ _
  · intro tools report ok
    rw [eq_comm, ← List.forall₂_eq_eq_eq, List.forall₂_map_left_iff, List.forall₂_map_right_iff]
    exact (Report.rows_of_ofTools ok).1.imp fun _ _ shows => shows.summary.symm

/-- Blank lines in front are passed over, whatever ends them, and so is all that follows. -/
theorem summary_is_first_line_sample :
    ∃ description lines report,
      description = " \r\n\x85\x1c\t a\tb \x0c\r c" ∧ Text.Divides description.toList lines ∧
        Report.ofTools [⟨"t", description, .obj [("type", .str "object")], rfl⟩] = .ok report ∧ lines.length = 6 ∧
        Text.firstShown lines = "a\tb".toList ∧ report.rows.map (·.summary) = ["a\tb"] := by
  let description := " \r\n\x85\x1c\t a\tb \x0c\r c"
  have evaluated : summaryOf description = "a\tb" := by decide +kernel
  let tool : Tool := ⟨"t", description, .obj [("type", .str "object")], rfl⟩
  have countable : ∀ other ∈ [tool], other.IsCountable := by
    simp only [← Report.exists_rowOf_iff]
    exact List.forall_mem_singleton.mpr ⟨_, rfl⟩
  obtain ⟨report, ok⟩ := Report.exists_ofTools_iff.mpr countable
  obtain ⟨⟨lines, divides, _⟩, first, _, _, rows⟩ := summary_is_first_line description
  refine ⟨description, lines, report, rfl, divides, ok, ?_, ?_, ?_⟩
  · rw [← Text.divides_iff.mp divides]
    decide +kernel
  · rw [← (first lines divides).1, evaluated]
  · rw [rows [tool] report ok, List.map_singleton, evaluated]

end Toolsmith

import Mathlib.Data.List.TakeWhile
import Toolsmith.Text.Line

/-!
Lines hold no line breaks, and with their ends behind them they make up the text; there is one way
to divide a text like that. The first line stands at the start of the text.
-/

set_option autoImplicit false

namespace Toolsmith.Text

theorem forall_mem_consFirst {holds : Char → Prop} {c : Char} {parts : List (List Char)}
    (first : holds c) (each : ∀ part ∈ parts, ∀ d ∈ part, holds d) :
    ∀ part ∈ consFirst c parts, ∀ d ∈ part, holds d := by
  cases parts with
  | nil => exact List.forall_mem_singleton.mpr (List.forall_mem_singleton.mpr first)
  | cons part rest =>
      obtain ⟨own, others⟩ := List.forall_mem_cons.mp each
      exact List.forall_mem_cons.mpr ⟨List.forall_mem_cons.mpr ⟨first, own⟩, others⟩

/-- Whatever breaks the lines of a text, they are without it. -/
theorem not_isLineBreak_of_mem_lines (text : List Char) :
    ∀ line ∈ lines text, ∀ c ∈ line, ¬ isLineBreak c = true := by
  induction text using lines.induct with
  | case1 => exact List.forall_mem_nil _
  | case2 rest inductionHypothesis =>
      rw [lines]
      exact List.forall_mem_cons.mpr ⟨List.forall_mem_nil _, inductionHypothesis⟩
  | case3 c rest noPair isBreak inductionHypothesis =>
      rw [lines.eq_3 c rest noPair, if_pos isBreak]
      exact List.forall_mem_cons.mpr ⟨List.forall_mem_nil _, inductionHypothesis⟩
  | case4 c rest noPair noBreak inductionHypothesis =>
      rw [lines.eq_3 c rest noPair, if_neg noBreak]
      exact forall_mem_consFirst noBreak inductionHypothesis

/-- The first line stands at the start of a text. -/
theorem prefix_of_lines_eq_cons {text line : List Char} {others : List (List Char)}
    (parts : lines text = line :: others) : line <+: text := by
  induction text using lines.induct generalizing line others with
  | case1 => contradiction
  | case2 rest =>
      rw [lines, List.cons.injEq] at parts
      rw [← parts.1]
      exact List.nil_prefix
  | case3 c rest noPair isBreak =>
      rw [lines.eq_3 c rest noPair, if_pos isBreak, List.cons.injEq] at parts
      rw [← parts.1]
      exact List.nil_prefix
  | case4 c rest noPair noBreak inductionHypothesis =>
      rw [lines.eq_3 c rest noPair, if_neg noBreak] at parts
      cases later : lines rest with
      | nil =>
          rw [later, consFirst, List.cons.injEq] at parts
          rw [← parts.1]
          exact List.prefix_append [c] rest
      | cons own behind =>
          rw [later, consFirst, List.cons.injEq] at parts
          rw [← parts.1, List.prefix_cons_inj]
          exact inductionHypothesis later

/-- What ends a line: one character, or the two of CR LF. -/
inductive IsLineEnd : List Char → Prop
  | single {c : Char} (isBreak : isLineBreak c = true) : IsLineEnd [c]
  | pair : IsLineEnd ['\r', '\n']

/-- A text is made of lines, each but the last with its end behind it. An end at the very end opens
no further line, and CR LF is not taken for two ends. -/
inductive Divides : List Char → List (List Char) → Prop
  | nil : Divides [] []
  | last {line : List Char} (some : line ≠ []) (unbroken : ∀ c ∈ line, isLineBreak c = false) :
      Divides line [line]
  | line {line ending rest : List Char} {others : List (List Char)}
      (unbroken : ∀ c ∈ line, isLineBreak c = false) (ends : IsLineEnd ending)
      (whole : ending = ['\r'] → rest.head? ≠ some '\n') (later : Divides rest others) :
      Divides (line ++ (ending ++ rest)) (line :: others)

theorem Divides.cons {c : Char} {rest : List Char} {parts : List (List Char)}
    (noBreak : isLineBreak c = false) (divides : Divides rest parts) :
    Divides (c :: rest) (consFirst c parts) := by
  cases divides with
  | nil => exact .last (List.cons_ne_nil c []) (List.forall_mem_singleton.mpr noBreak)
  | last _ unbroken =>
      apply Divides.last (List.cons_ne_nil c rest)
      exact List.forall_mem_cons.mpr ⟨noBreak, unbroken⟩
  | @line line ending rest others unbroken ends whole later =>
      have longer : ∀ d ∈ c :: line, isLineBreak d = false :=
        List.forall_mem_cons.mpr ⟨noBreak, unbroken⟩
      exact .line longer ends whole later

theorem divides_lines (text : List Char) : Divides text (lines text) := by
  induction text using lines.induct with
  | case1 => exact .nil
  | case2 rest inductionHypothesis =>
      rw [lines]
      exact .line (List.forall_mem_nil _) .pair nofun inductionHypothesis
  | case3 c rest noPair isBreak inductionHypothesis =>
      rw [lines.eq_3 c rest noPair, if_pos isBreak]
      refine .line (List.forall_mem_nil _) (.single isBreak) ?_ inductionHypothesis
      intro carriageReturn lineFeed
      obtain ⟨behind, paired⟩ := List.head?_eq_some_iff.mp lineFeed
      exact noPair behind (List.singleton_inj.mp carriageReturn) paired
  | case4 c rest noPair noBreak inductionHypothesis =>
      rw [lines.eq_3 c rest noPair, if_neg noBreak]
      exact .cons (Bool.not_eq_true _ ▸ noBreak) inductionHypothesis

/-- A character that does not break lines stands in front of the first one. -/
theorem lines_cons {c : Char} (noBreak : isLineBreak c = false) (rest : List Char) :
    lines (c :: rest) = consFirst c (lines rest) := by
  have noPair : ∀ behind, c = '\r' → rest = '\n' :: behind → False := by
    rintro behind rfl -
    contradiction
  rw [lines.eq_3 c rest noPair, noBreak]
  exact if_neg Bool.false_ne_true

theorem lines_eq_singleton {line : List Char} (some : line ≠ [])
    (unbroken : ∀ c ∈ line, isLineBreak c = false) : lines line = [line] := by
  induction line with
  | nil => contradiction
  | cons c rest inductionHypothesis =>
      obtain ⟨noBreak, others⟩ := List.forall_mem_cons.mp unbroken
      rw [lines_cons noBreak]
      cases rest with
      | nil => rfl
      | cons d behind => rw [inductionHypothesis (List.cons_ne_nil d behind) others, consFirst]

theorem lines_end {ending rest : List Char} (ends : IsLineEnd ending)
    (whole : ending = ['\r'] → rest.head? ≠ some '\n') :
    lines (ending ++ rest) = [] :: lines rest := by
  cases ends with
  | @single c isBreak =>
      have noPair : ∀ behind, c = '\r' → rest = '\n' :: behind → False := by
        rintro behind rfl rfl
        exact whole rfl rfl
      exact (lines.eq_3 c rest noPair).trans (if_pos isBreak)
  | pair => rw [List.cons_append, List.singleton_append, lines]

theorem lines_line {line ending rest : List Char}
    (unbroken : ∀ c ∈ line, isLineBreak c = false) (ends : IsLineEnd ending)
    (whole : ending = ['\r'] → rest.head? ≠ some '\n') :
    lines (line ++ (ending ++ rest)) = line :: lines rest := by
  induction line with
  | nil => exact lines_end ends whole
  | cons c line inductionHypothesis =>
      obtain ⟨noBreak, others⟩ := List.forall_mem_cons.mp unbroken
      rw [List.cons_append, lines_cons noBreak, inductionHypothesis others, consFirst]

/-- There is one way to divide a text into lines. -/
theorem divides_iff {text : List Char} {parts : List (List Char)} :
    Divides text parts ↔ lines text = parts := by
  constructor
  · intro divides
    induction divides with
    | nil => rw [lines]
    | last some unbroken => exact lines_eq_singleton some unbroken
    | line unbroken ends whole _ inductionHypothesis =>
        rw [lines_line unbroken ends whole, inductionHypothesis]
  · rintro rfl
    exact divides_lines text

/-- The first line goes up to the first break. -/
theorem Divides.head?_eq {text : List Char} {parts : List (List Char)}
    (divides : Divides text parts) (some : text ≠ []) :
    parts.head? = Option.some (text.takeWhile fun c => !isLineBreak c) := by
  cases divides with
  | nil => contradiction
  | last _ unbroken =>
      rw [List.head?_singleton, List.takeWhile_eq_self_iff.mpr]
      intro c member
      rw [unbroken c member, Bool.not_false]
  | line unbroken ends whole later =>
      rw [List.head?_cons, List.takeWhile_append_of_pos]
      · cases ends with
        | single isBreak => simp [isBreak]
        | pair => simp [isLineBreak]
      · intro c member
        rw [unbroken c member, Bool.not_false]

end Toolsmith.Text

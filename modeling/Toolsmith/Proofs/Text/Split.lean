import Toolsmith.Proofs.Text.Line
import Toolsmith.Text.Split

/-!
Splitting a text at a separator. The parts hold no separator and make up the text when they are
joined, and there is one way to divide a text like that.
-/

set_option autoImplicit false

namespace Toolsmith.Text

variable {separator : Char} {text : List Char} {parts : List (List Char)}

theorem consFirst_eq_modifyHead (c : Char) (some : parts ≠ []) :
    consFirst c parts = parts.modifyHead (List.cons c) := by
  cases parts with
  | nil => contradiction
  | cons part rest => rfl

theorem splitAt_eq_splitOn (separator : Char) (text : List Char) :
    splitAt separator text = text.splitOn separator := by
  induction text with
  | nil => rw [splitAt, List.splitOn_nil]
  | cons c rest inductionHypothesis =>
      rw [splitAt, inductionHypothesis, List.splitOn_cons_eq_if_modifyHead,
        consFirst_eq_modifyHead c (List.splitOn_ne_nil separator rest)]
      simp only [beq_iff_eq]

theorem splitAt_ne_nil (separator : Char) (text : List Char) : splitAt separator text ≠ [] := by
  rw [splitAt_eq_splitOn]
  exact List.splitOn_ne_nil separator text

/-- The parts make up the text again. -/
theorem intercalate_splitAt (separator : Char) (text : List Char) :
    [separator].intercalate (splitAt separator text) = text := by
  rw [splitAt_eq_splitOn, List.intercalate_splitOn]

theorem splitAt_intercalate (some : parts ≠ []) (each : ∀ part ∈ parts, separator ∉ part) :
    splitAt separator ([separator].intercalate parts) = parts := by
  rw [splitAt_eq_splitOn, List.splitOn_intercalate separator each some]

theorem notMem_of_mem_splitAt (separator : Char) (text : List Char) :
    ∀ part ∈ splitAt separator text, separator ∉ part := by
  suffices each : ∀ part ∈ splitAt separator text, ∀ c ∈ part, c ≠ separator by
    exact fun part member inside => each part member separator inside rfl
  induction text with
  | nil => exact List.forall_mem_singleton.mpr (List.forall_mem_nil _)
  | cons c rest inductionHypothesis =>
      rw [splitAt]
      split
      · exact List.forall_mem_cons.mpr ⟨List.forall_mem_nil _, inductionHypothesis⟩
      · rename_i other
        exact forall_mem_consFirst other inductionHypothesis

end Toolsmith.Text

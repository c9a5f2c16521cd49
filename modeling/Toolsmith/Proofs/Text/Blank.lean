import Mathlib.Data.List.DropRight
import Toolsmith.Text.Blank

/-!
Trimming. What is trimmed off stands in front of what is left and behind it, and what is left
neither begins nor ends with a character to trim. There is only one way to cut a text like that, so
these two facts tell what trimming does.
-/

set_option autoImplicit false

namespace Toolsmith.Text

variable {drop : Char → Bool} {text front core back : List Char}

/-- A text that neither begins nor ends with a character of a class. -/
@[mk_iff isTrimmed_iff]
structure IsTrimmed (drop : Char → Bool) (text : List Char) : Prop where
  first : ∀ c ∈ text.head?, drop c = false
  last : ∀ c ∈ text.getLast?, drop c = false

instance (drop : Char → Bool) (text : List Char) : Decidable (IsTrimmed drop text) :=
  decidable_of_iff
    ((text.head?.all fun c => !drop c) = true ∧ (text.getLast?.all fun c => !drop c) = true)
    (by simp only [Option.all_eq_true, Bool.not_eq_true', isTrimmed_iff, Option.mem_def])

theorem IsTrimmed.of_forall (kept : ∀ c ∈ text, drop c = false) : IsTrimmed drop text where
  first := fun c first => kept c (List.mem_of_mem_head? first)
  last := fun c last => kept c (List.mem_of_mem_getLast? last)

theorem trimBy_eq (drop : Char → Bool) (text : List Char) :
    trimBy drop text = (text.dropWhile drop).rdropWhile drop := rfl

theorem trimBy_eq_nil_iff : trimBy drop text = [] ↔ ∀ c ∈ text, drop c = true := by
  rw [trimBy_eq, List.rdropWhile_eq_nil_iff]
  constructor
  · intro dropped c member
    rw [← List.takeWhile_append_dropWhile (p := drop) (l := text), List.mem_append] at member
    rcases member with front | behind
    · exact List.mem_takeWhile_imp front
    · exact dropped c behind
  · intro all c member
    exact all c ((List.dropWhile_suffix drop).subset member)

theorem head?_dropWhile (drop : Char → Bool) (text : List Char) :
    ∀ c ∈ (text.dropWhile drop).head?, drop c = false := by
  intro c first
  have kept := List.head?_dropWhile_not drop text
  rw [Option.mem_def.mp first] at kept
  exact kept

theorem getLast?_rdropWhile (drop : Char → Bool) (text : List Char) :
    ∀ c ∈ (text.rdropWhile drop).getLast?, drop c = false := by
  rw [List.rdropWhile, List.getLast?_reverse]
  exact head?_dropWhile drop text.reverse

theorem rdropWhile_append (behind : ∀ c ∈ back, drop c = true) :
    (text ++ back).rdropWhile drop = text.rdropWhile drop := by
  rw [List.rdropWhile, List.reverse_append, List.dropWhile_append_of_pos, List.rdropWhile]
  exact fun c member => behind c (List.mem_reverse.mp member)

theorem isTrimmed_trimBy (drop : Char → Bool) (text : List Char) :
    IsTrimmed drop (trimBy drop text) where
  first := by
    intro c first
    obtain ⟨behind, whole⟩ := List.rdropWhile_prefix drop (l := text.dropWhile drop)
    apply head?_dropWhile drop text
    rw [← whole, List.head?_append, ← trimBy_eq, Option.mem_def.mp first]
    rfl
  last := getLast?_rdropWhile drop (text.dropWhile drop)

/-- What is trimmed off stands in front and behind. -/
theorem exists_eq_trimBy (drop : Char → Bool) (text : List Char) :
    ∃ front back, text = front ++ trimBy drop text ++ back ∧
      (∀ c ∈ front, drop c = true) ∧ ∀ c ∈ back, drop c = true := by
  refine ⟨text.takeWhile drop, (text.dropWhile drop).rtakeWhile drop, ?_, ?_, ?_⟩
  · rw [trimBy_eq, List.append_assoc, List.rdropWhile_append_rtakeWhile,
      List.takeWhile_append_dropWhile]
  · exact fun c => List.mem_takeWhile_imp
  · exact fun c => List.mem_rtakeWhile_imp

theorem infix_trimBy (drop : Char → Bool) (text : List Char) : trimBy drop text <:+: text := by
  obtain ⟨front, back, whole, _⟩ := exists_eq_trimBy drop text
  exact ⟨front, back, whole.symm⟩

/-- However a text is cut into what is to be trimmed off and a trimmed text between, the trimmed
text is what is left. -/
theorem IsTrimmed.trimBy_surround (trimmed : IsTrimmed drop core)
    (before : ∀ c ∈ front, drop c = true) (behind : ∀ c ∈ back, drop c = true) :
    trimBy drop (front ++ core ++ back) = core := by
  cases core with
  | nil =>
      rw [List.append_nil, trimBy_eq_nil_iff]
      exact List.forall_mem_append.mpr ⟨before, behind⟩
  | cons c rest =>
      have kept : ¬ drop c = true := by
        rw [trimmed.first c rfl]
        exact Bool.false_ne_true
      have ended : ((c :: rest).rdropWhile drop) = c :: rest := by
        rw [List.rdropWhile_eq_self_iff]
        intro some
        rw [trimmed.last _ (List.getLast?_eq_getLast_of_ne_nil some)]
        exact Bool.false_ne_true
      calc trimBy drop (front ++ (c :: rest) ++ back)
        _ = ((c :: rest) ++ back).rdropWhile drop := by
          rw [trimBy_eq, List.append_assoc, List.dropWhile_append_of_pos before,
            List.cons_append, List.dropWhile_cons_of_neg kept]
        _ = (c :: rest).rdropWhile drop := rdropWhile_append behind
        _ = c :: rest := ended

theorem trimBy_append_left (before : ∀ c ∈ front, drop c = true) :
    trimBy drop (front ++ text) = trimBy drop text := by
  rw [trimBy_eq, List.dropWhile_append_of_pos before, trimBy_eq]

theorem trimBy_append_right (behind : ∀ c ∈ back, drop c = true) :
    trimBy drop (text ++ back) = trimBy drop text := by
  obtain ⟨first, last, whole, before, after⟩ := exists_eq_trimBy drop text
  have cut : text ++ back = first ++ trimBy drop text ++ (last ++ back) := by
    rw [← List.append_assoc, ← whole]
  rw [cut, (isTrimmed_trimBy drop text).trimBy_surround before]
  exact List.forall_mem_append.mpr ⟨after, behind⟩

end Toolsmith.Text

import Mathlib.Data.List.TakeWhile
import Toolsmith.ToolName

/-!
Tool names read back. The first delimiter of a text parts it in one way only, and no label holds a
delimiter, so a text is the name of at most one tool. Reading and writing are inverse to each other,
and a text that is no name is refused with what stands before its first delimiter.
-/

set_option autoImplicit false

namespace Toolsmith

namespace OperationKind

theorem mem_all (kind : OperationKind) : kind ∈ all := by
  cases kind <;> decide

theorem label_injective {first second : OperationKind} (same : first.label = second.label) :
    first = second := by
  revert same
  cases first <;> cases second <;> decide

theorem ofLabel?_eq_some_iff {label : String} {kind : OperationKind} :
    ofLabel? label = some kind ↔ kind.label = label := by
  constructor
  · intro found
    simpa using List.find?_some found
  · rintro rfl
    cases found : ofLabel? kind.label with
    | none =>
        have missed := List.find?_eq_none.mp found kind (mem_all kind)
        simp at missed
    | some other =>
        have same : other.label = kind.label := by simpa using List.find?_some found
        rw [label_injective same]

theorem ofLabel?_eq_none_iff {label : String} :
    ofLabel? label = none ↔ ∀ kind : OperationKind, kind.label ≠ label := by
  rw [Option.eq_none_iff_forall_ne_some]
  simp only [ne_eq, ofLabel?_eq_some_iff]

end OperationKind

namespace ToolName

theorem delimiter_notMem_label (kind : OperationKind) : delimiter ∉ kind.label.toList := by
  cases kind <;> decide

/-- The first delimiter is the one that nothing before it is. -/
theorem split?_eq_some_iff {text label field : String} :
    split? text = some (label, field) ↔
      text.toList = label.toList ++ delimiter :: field.toList ∧ delimiter ∉ label.toList := by
  simp only [split?]
  constructor
  · intro found
    have parts := List.takeWhile_append_dropWhile (p := (· ≠ delimiter)) (l := text.toList)
    have before := fun c =>
      List.mem_takeWhile_imp (p := (· ≠ delimiter)) (l := text.toList) (x := c)
    split at found
    · contradiction
    · rename_i first after rest
      have stopped : first = delimiter := by
        have head := List.head?_dropWhile_not (· ≠ delimiter) text.toList
        rw [rest] at head
        simpa using head
      simp only [Option.some.injEq, Prod.mk.injEq] at found
      obtain ⟨rfl, rfl⟩ := found
      rw [rest, stopped] at parts
      rw [String.toList_ofList, String.toList_ofList]
      refine ⟨parts.symm, ?_⟩
      intro member
      simpa using before delimiter member
  · rintro ⟨written, unparted⟩
    have passed : ∀ c ∈ label.toList, decide (c ≠ delimiter) = true := by
      intro c member
      simp only [decide_eq_true_eq]
      rintro rfl
      exact unparted member
    rw [written, List.dropWhile_append_of_pos passed, List.takeWhile_append_of_pos passed]
    simp [delimiter]

theorem split?_eq_none_iff {text : String} : split? text = none ↔ delimiter ∉ text.toList := by
  simp only [split?]
  split
  · rename_i nothing
    simp only [true_iff]
    intro member
    have dropped := List.dropWhile_eq_nil_iff.mp nothing delimiter member
    simp at dropped
  · rename_i first after rest
    simp only [reduceCtorEq, false_iff, not_not]
    have head := List.head?_dropWhile_not (· ≠ delimiter) text.toList
    have stopped : first = delimiter := by
      rw [rest] at head
      simpa using head
    have member : first ∈ text.toList.dropWhile (· ≠ delimiter) := by
      rw [rest]
      exact List.mem_cons_self
    rw [← stopped]
    exact (List.dropWhile_sublist _).subset member

theorem toList_text (name : ToolName) :
    name.text.toList = name.kind.label.toList ++ delimiter :: name.field.toList := by
  simp [text]

theorem split?_text (name : ToolName) : split? name.text = some (name.kind.label, name.field) :=
  split?_eq_some_iff.mpr ⟨toList_text name, delimiter_notMem_label name.kind⟩

theorem eq_text_of_split? {text : String} {kind : OperationKind} {field : String}
    (parted : split? text = some (kind.label, field)) : text = ToolName.text ⟨kind, field⟩ := by
  rw [← String.toList_inj, toList_text]
  exact (split?_eq_some_iff.mp parted).1

/-- A text is read in one of three ways. It has no delimiter, or no kind has the label before its
first delimiter, or it is the text of a name. -/
inductive Reads (source : String) : Except UnknownKind ToolName → Prop
  | undelimited (absent : delimiter ∉ source.toList) : Reads source (.error ⟨source, none⟩)
  | unlabelled {label field : String} (parted : split? source = some (label, field))
      (unknown : ∀ kind : OperationKind, kind.label ≠ label) :
      Reads source (.error ⟨source, some label⟩)
  | named (name : ToolName) (written : name.text = source) : Reads source (.ok name)

theorem read_of_reads {source : String} {result : Except UnknownKind ToolName}
    (reads : Reads source result) : read source = result := by
  cases reads with
  | undelimited absent => simp [read, split?_eq_none_iff.mpr absent]
  | unlabelled parted unknown =>
      simp [read, parted, OperationKind.ofLabel?_eq_none_iff.mpr unknown]
  | named name written =>
      rw [← written]
      simp [read, split?_text, OperationKind.ofLabel?_eq_some_iff.mpr rfl]

theorem reads_read (source : String) : Reads source (read source) := by
  -- One of the three ways is open to every text, and the reader takes whichever is.
  have total : ∃ result, Reads source result := by
    cases parted : split? source with
    | none => exact ⟨_, .undelimited (split?_eq_none_iff.mp parted)⟩
    | some parts =>
        obtain ⟨label, field⟩ := parts
        cases known : OperationKind.ofLabel? label with
        | none => exact ⟨_, .unlabelled parted (OperationKind.ofLabel?_eq_none_iff.mp known)⟩
        | some kind =>
            obtain rfl := OperationKind.ofLabel?_eq_some_iff.mp known
            exact ⟨_, .named ⟨kind, field⟩ (eq_text_of_split? parted).symm⟩
  obtain ⟨result, reads⟩ := total
  rwa [read_of_reads reads]

theorem read_eq_ok_iff {text : String} {name : ToolName} :
    read text = .ok name ↔ text = name.text := by
  constructor
  · intro found
    have reads := reads_read text
    rw [found] at reads
    cases reads with
    | named _ written => exact written.symm
  · intro written
    exact read_of_reads (.named name written.symm)

theorem text_injective {first second : ToolName} (same : first.text = second.text) :
    first = second := by
  have readFirst := read_eq_ok_iff.mpr same
  rw [read_eq_ok_iff.mpr rfl] at readFirst
  exact Except.ok.inj readFirst

/-! Texts that are no names. -/

/-- What stands before the first delimiter of a text. -/
def labelOf? (source : String) : Option String :=
  (split? source).map Prod.fst

theorem labelOf?_eq_none_iff {source : String} :
    labelOf? source = none ↔ delimiter ∉ source.toList := by
  rw [labelOf?, Option.map_eq_none_iff, split?_eq_none_iff]

theorem labelOf?_eq_some_iff {source label : String} :
    labelOf? source = some label ↔
      delimiter ∉ label.toList ∧ ∃ after, source.toList = label.toList ++ delimiter :: after := by
  simp only [labelOf?, Option.map_eq_some_iff, Prod.exists, exists_and_right, exists_eq_right,
    split?_eq_some_iff]
  constructor
  · rintro ⟨⟨field, written⟩, first⟩
    exact ⟨first, field.toList, written⟩
  · rintro ⟨first, after, written⟩
    exact ⟨⟨String.ofList after, by rw [written, String.toList_ofList]⟩, first⟩

theorem eq_of_read_eq_error {source : String} {error : UnknownKind}
    (refused : read source = .error error) : error = ⟨source, labelOf? source⟩ := by
  have reads := reads_read source
  rw [refused] at reads
  cases reads with
  | undelimited absent => rw [labelOf?_eq_none_iff.mpr absent]
  | unlabelled parted _ => rw [labelOf?, parted, Option.map_some]

theorem exists_read_error_iff {source : String} :
    (∃ error, read source = .error error) ↔ ∀ name : ToolName, name.text ≠ source := by
  constructor
  · rintro ⟨error, refused⟩ name written
    rw [read_eq_ok_iff.mpr written.symm] at refused
    contradiction
  · intro unnamed
    cases found : read source with
    | ok name => exact absurd (read_eq_ok_iff.mp found).symm (unnamed name)
    | error error => exact ⟨error, rfl⟩

/-- A text that is no name is refused with what stands before its first delimiter. -/
theorem read_eq_error_iff {source : String} {error : UnknownKind} :
    read source = .error error ↔
      (∀ name : ToolName, name.text ≠ source) ∧ error = ⟨source, labelOf? source⟩ := by
  rw [← exists_read_error_iff]
  constructor
  · intro refused
    exact ⟨⟨error, refused⟩, eq_of_read_eq_error refused⟩
  · rintro ⟨⟨other, refused⟩, rfl⟩
    rw [refused, eq_of_read_eq_error refused]

/-- Writing a name and reading one are inverse to each other. Every name is read back from its text,
whatever its field is, and a text that is read is written back. The texts that are refused are
those that are no name's, and the label they are refused with is none where there is no underscore
and what stands before the first one elsewhere. -/
theorem read_inverts_text :
    (∀ name : ToolName, read name.text = .ok name) ∧
      ∀ source,
        (∀ name, read source = .ok name ↔ name.text = source) ∧
        ((∃ error, read source = .error error) ↔ ∀ name : ToolName, name.text ≠ source) ∧
        ∀ error, read source = .error error ↔
          (∀ name : ToolName, name.text ≠ source) ∧ error.toolName = source ∧
            (error.label = none ↔ '_' ∉ source.toList) ∧
            ∀ label, error.label = some label ↔
              '_' ∉ label.toList ∧ ∃ after, source.toList = label.toList ++ '_' :: after := by
  refine ⟨fun name => read_eq_ok_iff.mpr rfl, fun source => ⟨fun name => ?_, ?_, fun error => ?_⟩⟩
  · rw [read_eq_ok_iff, eq_comm]
  · exact exists_read_error_iff
  · rw [read_eq_error_iff]
    apply and_congr_right'
    constructor
    · rintro rfl
      exact ⟨rfl, labelOf?_eq_none_iff, fun label => labelOf?_eq_some_iff⟩
    · rintro ⟨rfl, _, labelled⟩
      have same : error.label = labelOf? error.toolName := by
        ext label
        exact (labelled label).trans labelOf?_eq_some_iff.symm
      rw [← same]

/-- The field may look like a name itself. -/
example : read "query-tool_mutation-tool_f" = .ok ⟨.query, "mutation-tool_f"⟩ := by
  decide

/-- An empty label is not the same as none. -/
example : read "_f" = .error ⟨"_f", some ""⟩ := by
  decide

end ToolName

end Toolsmith

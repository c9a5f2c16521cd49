import Toolsmith.Proofs.Outcome
import Toolsmith.Proofs.Selection.Paths
import Toolsmith.Proofs.Text.Blank
import Toolsmith.Proofs.Text.Split
import Toolsmith.Settings

/-!
The lists among the settings. The entries of a list are its parts between commas, trimmed, without
those that are blank; so the blanks around entries and the blank parts between them have no say, and
whatever is not empty, trimmed and without commas can be an entry. No entry is empty, so no
environment keeps a field from being expanded that it does not name and whose name has none of its
endings.
-/

set_option autoImplicit false

namespace Toolsmith

theorem SelectionPolicy.expands_iff {policy : SelectionPolicy} {field : String} :
    policy.expands field = true ↔
      field ∉ policy.excludedFields ∧
        ∀ ending ∈ policy.connectionSuffixes, ¬ ending.toList <:+ field.toList := by
  simp only [expands, Bool.and_eq_true, Bool.not_eq_true', List.contains_eq_mem,
    decide_eq_false_iff_not, List.any_eq_false, List.isSuffixOf_iff_suffix]

namespace Settings

/-- What can be an entry of a list. -/
structure IsEntry (entry : String) : Prop where
  nonempty : entry ≠ ""
  noComma : ',' ∉ entry.toList
  trimmed : Text.IsTrimmed Text.isBlank entry.toList

/-- Entries as the parts between the commas of a list may show them: each with blanks around it, and
blank parts among them. -/
inductive IsWrittenAs : List String → List (List Char) → Prop
  | nil : IsWrittenAs [] []
  | blank {list : List String} {parts : List (List Char)} {part : List Char}
      (blank : ∀ c ∈ part, Text.isBlank c = true) (rest : IsWrittenAs list parts) :
      IsWrittenAs list (part :: parts)
  | entry {list : List String} {parts : List (List Char)} {front back : List Char} (entry : String)
      (before : ∀ c ∈ front, Text.isBlank c = true) (behind : ∀ c ∈ back, Text.isBlank c = true)
      (rest : IsWrittenAs list parts) :
      IsWrittenAs (entry :: list) ((front ++ entry.toList ++ back) :: parts)

/-! The entries of parts. -/

/-- The parts that are not blank, trimmed. -/
def shownIn (parts : List (List Char)) : List (List Char) :=
  (parts.filter fun part => !part.all Text.isBlank).map Text.trim

theorem shownIn_cons_of_blank {part : List Char} (blank : ∀ c ∈ part, Text.isBlank c = true)
    (parts : List (List Char)) : shownIn (part :: parts) = shownIn parts := by
  rw [shownIn, List.filter_cons_of_neg, shownIn]
  simpa using blank

theorem shownIn_cons {part : List Char} (shown : ¬ ∀ c ∈ part, Text.isBlank c = true)
    (parts : List (List Char)) : shownIn (part :: parts) = Text.trim part :: shownIn parts := by
  rw [shownIn, List.filter_cons_of_pos, List.map_cons, shownIn]
  simpa using shown

theorem shownIn_eq_filter (parts : List (List Char)) :
    shownIn parts = (parts.map Text.trim).filter (· ≠ []) := by
  induction parts with
  | nil => rfl
  | cons part parts inductionHypothesis =>
      by_cases blank : ∀ c ∈ part, Text.isBlank c = true
      · rw [shownIn_cons_of_blank blank, inductionHypothesis, List.map_cons,
          List.filter_cons_of_neg]
        simpa [Text.trim, Text.trimBy_eq_nil_iff] using blank
      · rw [shownIn_cons blank, inductionHypothesis, List.map_cons, List.filter_cons_of_pos]
        simpa [Text.trim, Text.trimBy_eq_nil_iff] using blank

theorem entries_eq (text : String) :
    entries text = (shownIn (Text.splitAt ',' text.toList)).map String.ofList := by
  rw [entries, shownIn_eq_filter]

theorem comma_notMem_of_blank {text : List Char} (blank : ∀ c ∈ text, Text.isBlank c = true) :
    ',' ∉ text := by
  intro comma
  have noBlank : Text.isBlank ',' = false := by decide
  rw [blank ',' comma] at noBlank
  contradiction

/-- Parts that show entries are divided by commas as they stand. -/
theorem IsWrittenAs.comma_notMem {list : List String} {parts : List (List Char)}
    (written : IsWrittenAs list parts) (each : ∀ entry ∈ list, IsEntry entry) :
    ∀ part ∈ parts, ',' ∉ part := by
  induction written with
  | nil => exact List.forall_mem_nil _
  | blank blank _ inductionHypothesis =>
      exact List.forall_mem_cons.mpr ⟨comma_notMem_of_blank blank, inductionHypothesis each⟩
  | entry entry before behind _ inductionHypothesis =>
      obtain ⟨own, others⟩ := List.forall_mem_cons.mp each
      refine List.forall_mem_cons.mpr ⟨?_, inductionHypothesis others⟩
      simp only [List.mem_append, not_or]
      exact ⟨⟨comma_notMem_of_blank before, own.noComma⟩, comma_notMem_of_blank behind⟩

theorem IsWrittenAs.shownIn_eq {list : List String} {parts : List (List Char)}
    (written : IsWrittenAs list parts) (each : ∀ entry ∈ list, IsEntry entry) :
    (shownIn parts).map String.ofList = list := by
  induction written with
  | nil => rfl
  | blank blank _ inductionHypothesis =>
      rw [shownIn_cons_of_blank blank, inductionHypothesis each]
  | @entry list parts front back entry before behind _ inductionHypothesis =>
      obtain ⟨own, others⟩ := List.forall_mem_cons.mp each
      have trimmed : Text.trim (front ++ entry.toList ++ back) = entry.toList :=
        own.trimmed.trimBy_surround before behind
      rw [shownIn_cons, trimmed, List.map_cons, String.ofList_toList, inductionHypothesis others]
      rw [← Text.trimBy_eq_nil_iff]
      change ¬ Text.trim _ = []
      rw [trimmed, String.toList_eq_nil_iff]
      exact own.nonempty

theorem entries_of_isWrittenAs {list : List String} {parts : List (List Char)}
    (written : IsWrittenAs list parts) (each : ∀ entry ∈ list, IsEntry entry) :
    entries (String.ofList ([','].intercalate parts)) = list := by
  rw [entries_eq, String.toList_ofList]
  by_cases none : parts = []
  · subst none
    exact written.shownIn_eq each
  · rw [Text.splitAt_intercalate none (written.comma_notMem each), written.shownIn_eq each]

theorem isEntry_of_mem_entries {text entry : String} (member : entry ∈ entries text) :
    IsEntry entry := by
  rw [entries_eq] at member
  obtain ⟨shown, shownMember, rfl⟩ := List.mem_map.mp member
  obtain ⟨part, kept, rfl⟩ := List.mem_map.mp shownMember
  obtain ⟨partMember, shows⟩ := List.mem_filter.mp kept
  constructor
  · rw [Ne, ← String.toList_eq_nil_iff, String.toList_ofList]
    intro blank
    rw [List.all_eq_true.mpr (Text.trimBy_eq_nil_iff.mp blank)] at shows
    contradiction
  · rw [String.toList_ofList]
    intro comma
    apply Text.notMem_of_mem_splitAt ',' text.toList part partMember
    exact (Text.infix_trimBy _ part).subset comma
  · rw [String.toList_ofList]
    exact Text.isTrimmed_trimBy _ part

/-- Entries with a comma between any two are written without blanks. -/
theorem isWrittenAs_map_toList (list : List String) :
    IsWrittenAs list (list.map String.toList) := by
  induction list with
  | nil => exact .nil
  | cons entry rest inductionHypothesis =>
      have bare := IsWrittenAs.entry entry (List.forall_mem_nil _) (List.forall_mem_nil _)
        inductionHypothesis
      rwa [List.nil_append, List.append_nil] at bare

/-! The entries of an environment. -/

/-- The names that an environment keeps from being expanded, as they stand in it. -/
def excludedEntries (environment : Environment) : List String :=
  ((environment.get? excludedVariable).map entries).getD SelectionPolicy.standard.excludedFields

theorem mem_distinctEntries {text entry : String} :
    entry ∈ distinctEntries text ↔ entry ∈ entries text := by
  rw [distinctEntries, List.mem_mergeSort, List.mem_eraseDups]

theorem mem_excludedOf {environment : Environment} {entry : String} :
    entry ∈ excludedOf environment ↔ entry ∈ excludedEntries environment := by
  unfold excludedOf excludedEntries
  cases environment.get? excludedVariable with
  | none => exact Iff.rfl
  | some text => exact mem_distinctEntries

theorem policy_of_ofEnvironment {environment : Environment} {settings : Settings}
    (ok : ofEnvironment environment = .ok settings) :
    settings.policy.connectionSuffixes = suffixesOf environment ∧
      settings.policy.excludedFields = excludedOf environment := by
  obtain ⟨_, _, rfl⟩ := Except.map_eq_ok_iff.mp ok
  exact ⟨rfl, rfl⟩

theorem empty_notMem_suffixesOf (environment : Environment) : "" ∉ suffixesOf environment := by
  unfold suffixesOf
  cases environment.get? suffixesVariable with
  | none => decide
  | some text =>
      intro member
      exact (isEntry_of_mem_entries member).nonempty rfl

/-- The entries of a list are its parts between commas that are not blank, trimmed, in their order:
each is not empty, trimmed and without commas, and all that is of this kind comes back however many
blanks and blank parts are written around it. So among the endings that an environment gives there
is no empty one, and a field above the greatest depth is expanded unless it is excluded or has one
of the endings. -/
theorem entries_are_trimmed_parts :
    (∀ text,
      (∃ parts, parts ≠ [] ∧ (∀ part ∈ parts, ',' ∉ part) ∧
          text.toList = [','].intercalate parts ∧
          entries text = (shownIn parts).map String.ofList) ∧
        ∀ entry ∈ entries text, IsEntry entry) ∧
      (∀ list, (∀ entry ∈ list, IsEntry entry) →
        entries (",".intercalate list) = list ∧
          ∀ parts, IsWrittenAs list parts →
            entries (String.ofList ([','].intercalate parts)) = list) ∧
      ∀ environment settings, ofEnvironment environment = .ok settings →
        (∀ text, environment.get? suffixesVariable = some text →
          settings.policy.connectionSuffixes = entries text) ∧
        (∀ text, environment.get? excludedVariable = some text →
          ∀ field, field ∈ settings.policy.excludedFields ↔ field ∈ entries text) ∧
        "" ∉ settings.policy.connectionSuffixes ∧
        ∀ field depth, settings.policy.allowsNested field depth = true ↔
          depth < settings.policy.maxDepth ∧ field ∉ settings.policy.excludedFields ∧
            ∀ ending ∈ settings.policy.connectionSuffixes,
              ending ≠ "" → ¬ ending.toList <:+ field.toList := by
  refine ⟨fun text => ⟨?_, fun _ => isEntry_of_mem_entries⟩, fun list each => ⟨?_, ?_⟩, ?_⟩
  · refine ⟨Text.splitAt ',' text.toList, Text.splitAt_ne_nil _ _, ?_, ?_, entries_eq text⟩
    · exact Text.notMem_of_mem_splitAt ',' text.toList
    · exact (Text.intercalate_splitAt ',' text.toList).symm
  · have bare := entries_of_isWrittenAs (isWrittenAs_map_toList list) each
    have joined : String.ofList ([','].intercalate (list.map String.toList)) =
        ",".intercalate list := by
      rw [← String.toList_inj, String.toList_ofList, String.toList_intercalate]
      rfl
    rwa [joined] at bare
  · exact fun parts written => entries_of_isWrittenAs written each
  · intro environment settings ok
    obtain ⟨suffixes, excluded⟩ := policy_of_ofEnvironment ok
    have nonempty := empty_notMem_suffixesOf environment
    rw [← suffixes] at nonempty
    refine ⟨fun text found => ?_, fun text found field => ?_, nonempty, fun field depth => ?_⟩
    · rw [suffixes, suffixesOf, found]
      rfl
    · rw [excluded, mem_excludedOf, excludedEntries, found]
      rfl
    · rw [SelectionPolicy.allowsNested_iff, SelectionPolicy.expands_iff]
      apply and_congr_right'
      apply and_congr_right'
      apply forall₂_congr
      intro ending member
      have some : ending ≠ "" := fun empty => nonempty (empty ▸ member)
      exact (imp_iff_right some).symm

/-- Blanks of all kinds around the entries, and parts that are blank. -/
theorem entries_are_trimmed_parts_sample :
    ∃ settings parts,
      IsWrittenAs ["a b", "c"] parts ∧
        String.ofList ([','].intercalate parts) = " a b\x85,\t,\u2003c\x1c" ∧
        entries " a b\x85,\t,\u2003c\x1c" = ["a b", "c"] ∧
        ofEnvironment
            [("GQLBRIDGE_EXCLUDED_FIELDS", ","),
              ("GQLBRIDGE_CONNECTION_SUFFIXES", ", Page ,\u3000,,Edge\n")] = .ok settings ∧
        settings.policy.connectionSuffixes = ["Page", "Edge"] ∧
        settings.policy.allowsNested "Edges" 0 = true := by
  have blanks (text : String) (blank : text.toList.all Text.isBlank = true) :
      ∀ c ∈ text.toList, Text.isBlank c = true := List.all_eq_true.mp blank
  have written := IsWrittenAs.entry "a b" (blanks " " rfl) (blanks "\x85" rfl)
    (.blank (blanks "\t" rfl) (.entry "c" (blanks "\u2003" rfl) (blanks "\x1c" rfl) .nil))
  have each : ∀ entry ∈ ["a b", "c"], IsEntry entry :=
    List.forall_mem_cons.mpr ⟨⟨by decide, by decide, by decide⟩,
      List.forall_mem_singleton.mpr ⟨by decide, by decide, by decide⟩⟩
  obtain ⟨settings, ok, depth⟩ := Except.exists_eq_ok_of_any
    (ofEnvironment
      [("GQLBRIDGE_EXCLUDED_FIELDS", ","),
        ("GQLBRIDGE_CONNECTION_SUFFIXES", ", Page ,\u3000,,Edge\n")])
    (fun settings => settings.policy.maxDepth == 1) (by decide +kernel)
  obtain ⟨_, restored, policies⟩ := entries_are_trimmed_parts
  obtain ⟨suffixes, excluded, _, allowed⟩ := policies _ settings ok
  have joined : String.ofList ([','].intercalate
      [" ".toList ++ "a b".toList ++ "\x85".toList, "\t".toList,
        "\u2003".toList ++ "c".toList ++ "\x1c".toList]) = " a b\x85,\t,\u2003c\x1c" := by
    decide +kernel
  refine ⟨settings, _, written, joined, ?_, ok, ?_, ?_⟩
  · rw [← joined]
    exact (restored ["a b", "c"] each).2 _ written
  · rw [suffixes _ rfl]
    decide +kernel
  · rw [allowed, excluded "," rfl, suffixes _ rfl, eq_of_beq depth]
    decide +kernel

end Settings

end Toolsmith

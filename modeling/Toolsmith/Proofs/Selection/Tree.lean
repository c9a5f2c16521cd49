import Mathlib.Data.List.Nodup
import Toolsmith.Selection

/-!
Selections as trees. A tree is known by the ways from its roots to its leaves, and its text is made
of words: the names in it and a pair of braces around what is selected side by side.
-/

set_option autoImplicit false

namespace Toolsmith.Selection

/-- The field that is selected. -/
def name : Selection → String
  | .leaf field => field
  | .nested field _ => field

mutual

/-- The names on the way to each leaf. -/
def paths : Selection → List (List String)
  | .leaf field => [[field]]
  | .nested field members => (allPaths members).map (field :: ·)

def allPaths : List Selection → List (List String)
  | [] => []
  | member :: rest => member.paths ++ allPaths rest

end

mutual

/-- How many fields lie inside each other. -/
def height : Selection → Nat
  | .leaf _ => 1
  | .nested _ members => heightOfAll members + 1

def heightOfAll : List Selection → Nat
  | [] => 0
  | member :: rest => max member.height (heightOfAll rest)

end

mutual

/-- The words of a text, where a brace is a word of its own. -/
def words : Selection → List (List Char)
  | .leaf field => [field.toList]
  | .nested field members => field.toList :: ['{'] :: (allWords members ++ [['}']])

def allWords : List Selection → List (List Char)
  | [] => []
  | member :: rest => member.words ++ allWords rest

end

/-- The words of selections between braces. -/
def setWords (members : List Selection) : List (List Char) :=
  ['{'] :: (allWords members ++ [['}']])

/-- No field is selected twice side by side. -/
inductive AreDistinct : List Selection → Prop
  | siblings {members : List Selection} (names : (members.map name).Nodup)
      (inside : ∀ field inner, .nested field inner ∈ members → AreDistinct inner) :
      AreDistinct members

/-- Braces have something between them. -/
inductive IsFilled : Selection → Prop
  | leaf (field : String) : IsFilled (.leaf field)
  | nested {field : String} {members : List Selection} (nonempty : members ≠ [])
      (all : ∀ member ∈ members, IsFilled member) : IsFilled (.nested field members)

/-! Paths. -/

theorem mem_allPaths {members : List Selection} {path : List String} :
    path ∈ allPaths members ↔ ∃ member ∈ members, path ∈ member.paths := by
  induction members with
  | nil => simp [allPaths]
  | cons member rest inductionHypothesis =>
      rw [allPaths, List.mem_append, inductionHypothesis]
      simp

theorem mem_paths_nested {field : String} {members : List Selection} {path : List String} :
    path ∈ (nested field members).paths ↔ ∃ rest ∈ allPaths members, path = field :: rest := by
  simp [paths, eq_comm]

/-- A path starts with the field that it leads through first. -/
theorem exists_tail_of_mem_paths {selection : Selection} {path : List String}
    (member : path ∈ selection.paths) : ∃ rest, path = selection.name :: rest := by
  cases selection with
  | leaf field =>
      rw [paths, List.mem_singleton] at member
      exact ⟨[], member⟩
  | nested field members =>
      obtain ⟨rest, _, rfl⟩ := mem_paths_nested.mp member
      exact ⟨rest, rfl⟩

/-- Braces lie on every path that leads through them, and something lies in them. -/
theorem singleton_notMem_paths_nested {field other : String} {members : List Selection} :
    [field] ∉ (nested other members).paths := by
  intro alone
  obtain ⟨rest, lies, split⟩ := mem_paths_nested.mp alone
  obtain ⟨_, rfl⟩ := List.cons.inj split
  obtain ⟨member, _, own⟩ := mem_allPaths.mp lies
  obtain ⟨_, impossible⟩ := exists_tail_of_mem_paths own
  contradiction

theorem exists_path_of_isFilled {selection : Selection} (filled : selection.IsFilled) :
    ∃ path, path ∈ selection.paths := by
  induction filled with
  | leaf field => exact ⟨[field], List.mem_singleton.mpr rfl⟩
  | @nested field members nonempty _ inductionHypothesis =>
      obtain ⟨first, included⟩ := List.exists_mem_of_ne_nil members nonempty
      obtain ⟨path, member⟩ := inductionHypothesis first included
      exact ⟨field :: path,
        mem_paths_nested.mpr ⟨path, mem_allPaths.mpr ⟨first, included, member⟩, rfl⟩⟩

/-- Where braces are never empty, a tree without paths is no tree. -/
theorem eq_nil_iff_allPaths {members : List Selection}
    (filled : ∀ member ∈ members, member.IsFilled) :
    members = [] ↔ ∀ path, path ∉ allPaths members := by
  constructor
  · rintro rfl path member
    simp [allPaths] at member
  · intro none
    cases members with
    | nil => rfl
    | cons first rest =>
        obtain ⟨path, member⟩ := exists_path_of_isFilled (filled first List.mem_cons_self)
        exact absurd (mem_allPaths.mpr ⟨first, List.mem_cons_self, member⟩) (none path)

/-- Among selections of distinct fields the paths that start with a field are those of its
selection. -/
theorem mem_paths_iff_of_mem {members : List Selection} (distinct : (members.map name).Nodup)
    {member : Selection} (included : member ∈ members) {path : List String} :
    path ∈ member.paths ↔
      path ∈ allPaths members ∧ ∃ rest, path = member.name :: rest := by
  constructor
  · intro own
    exact ⟨mem_allPaths.mpr ⟨member, included, own⟩, exists_tail_of_mem_paths own⟩
  · rintro ⟨some, rest, rfl⟩
    obtain ⟨other, otherIncluded, lies⟩ := mem_allPaths.mp some
    obtain ⟨_, same⟩ := exists_tail_of_mem_paths lies
    have named : other.name = member.name := (List.cons.inj same).1.symm
    rwa [List.inj_on_of_nodup_map distinct otherIncluded included named] at lies

theorem mem_names_iff_allPaths {members : List Selection}
    (filled : ∀ member ∈ members, member.IsFilled) {field : String} :
    field ∈ members.map name ↔ ∃ rest, field :: rest ∈ allPaths members := by
  simp only [List.mem_map, mem_allPaths]
  constructor
  · rintro ⟨member, included, rfl⟩
    obtain ⟨path, own⟩ := exists_path_of_isFilled (filled member included)
    obtain ⟨rest, rfl⟩ := exists_tail_of_mem_paths own
    exact ⟨rest, member, included, own⟩
  · rintro ⟨rest, member, included, own⟩
    obtain ⟨_, same⟩ := exists_tail_of_mem_paths own
    exact ⟨member, included, (List.cons.inj same).1.symm⟩

/-! Trees with the same paths. -/

theorem eq_of_sublist_of_mem_iff {α : Type} {whole first second : List α} (distinct : whole.Nodup)
    (firstPart : first.Sublist whole) (secondPart : second.Sublist whole)
    (same : ∀ x, x ∈ first ↔ x ∈ second) : first = second := by
  induction whole generalizing first second with
  | nil => rw [List.sublist_nil.mp firstPart, List.sublist_nil.mp secondPart]
  | cons head tail inductionHypothesis =>
      obtain ⟨fresh, others⟩ := List.nodup_cons.mp distinct
      cases firstPart with
      | cons _ firstPart =>
          cases secondPart with
          | cons _ secondPart => exact inductionHypothesis others firstPart secondPart same
          | cons_cons _ secondPart =>
              have member := (same head).mpr List.mem_cons_self
              exact absurd (firstPart.subset member) fresh
      | @cons_cons first _ _ firstPart =>
          cases secondPart with
          | cons _ secondPart =>
              have member := (same head).mp List.mem_cons_self
              exact absurd (secondPart.subset member) fresh
          | @cons_cons second _ _ secondPart =>
              have rest : ∀ x, x ∈ first ↔ x ∈ second := by
                intro x
                constructor
                · intro member
                  rcases List.mem_cons.mp ((same x).mp (List.mem_cons_of_mem head member)) with
                    rfl | further
                  · exact absurd (firstPart.subset member) fresh
                  · exact further
                · intro member
                  rcases List.mem_cons.mp ((same x).mpr (List.mem_cons_of_mem head member)) with
                    rfl | further
                  · exact absurd (secondPart.subset member) fresh
                  · exact further
              rw [inductionHypothesis others firstPart secondPart rest]

theorem eq_of_map_name_eq {first second : List Selection}
    (names : first.map name = second.map name)
    (agree : ∀ one ∈ first, ∀ other ∈ second, one.name = other.name → one = other) :
    first = second := by
  induction first generalizing second with
  | nil =>
      rw [List.map_nil] at names
      exact (List.map_eq_nil_iff.mp names.symm).symm
  | cons member rest inductionHypothesis =>
      rw [List.map_cons] at names
      obtain ⟨other, others, rfl, named, rests⟩ := List.map_eq_cons_iff.mp names.symm
      rw [agree member List.mem_cons_self other List.mem_cons_self named.symm]
      rw [inductionHypothesis rests.symm fun one included two also =>
        agree one (List.mem_cons_of_mem _ included) two (List.mem_cons_of_mem _ also)]

/-- Selections side by side, in an order that is given, are told apart by their paths if each one
is. -/
theorem eq_of_allPaths_iff {fields : List String} (distinct : fields.Nodup)
    {first second : List Selection}
    (firstOrder : (first.map name).Sublist fields) (secondOrder : (second.map name).Sublist fields)
    (firstFilled : ∀ member ∈ first, member.IsFilled)
    (secondFilled : ∀ member ∈ second, member.IsFilled)
    (same : ∀ path, path ∈ allPaths first ↔ path ∈ allPaths second)
    (agree : ∀ one ∈ first, ∀ other ∈ second, one.name = other.name →
      (∀ path, path ∈ one.paths ↔ path ∈ other.paths) → one = other) :
    first = second := by
  have names : first.map name = second.map name := by
    apply eq_of_sublist_of_mem_iff distinct firstOrder secondOrder
    intro field
    rw [mem_names_iff_allPaths firstFilled, mem_names_iff_allPaths secondFilled]
    simp only [same]
  apply eq_of_map_name_eq names
  intro one included other also named
  apply agree one included other also named
  intro path
  rw [mem_paths_iff_of_mem (firstOrder.nodup distinct) included,
    mem_paths_iff_of_mem (secondOrder.nodup distinct) also, same, named]

/-! Heights. -/

theorem heightOfAll_le_iff {members : List Selection} {bound : Nat} :
    heightOfAll members ≤ bound ↔ ∀ member ∈ members, member.height ≤ bound := by
  induction members with
  | nil => simp [heightOfAll]
  | cons member rest inductionHypothesis =>
      rw [heightOfAll, Nat.max_le, inductionHypothesis, List.forall_mem_cons]

/-! Words. -/

theorem intercalate_append {separator : List Char} {first second : List (List Char)}
    (before : first ≠ []) (after : second ≠ []) :
    List.intercalate separator (first ++ second) =
      List.intercalate separator first ++ separator ++ List.intercalate separator second := by
  induction first with
  | nil => contradiction
  | cons word rest inductionHypothesis =>
      cases rest with
      | nil =>
          obtain ⟨next, others, rfl⟩ := List.exists_cons_of_ne_nil after
          simp [List.intercalate_cons_cons]
      | cons next others =>
          have joined := inductionHypothesis (List.cons_ne_nil next others)
          simp only [List.cons_append] at joined ⊢
          rw [List.intercalate_cons_cons, List.intercalate_cons_cons, joined]
          simp

theorem words_ne_nil (selection : Selection) : selection.words ≠ [] := by
  cases selection with
  | leaf => simp [words]
  | nested => simp [words]

theorem allWords_ne_nil {members : List Selection} (nonempty : members ≠ []) :
    allWords members ≠ [] := by
  obtain ⟨first, rest, rfl⟩ := List.exists_cons_of_ne_nil nonempty
  simp [allWords, words_ne_nil]

/-- Texts that are words between blanks each, with a blank between every two of them. -/
theorem intercalate_writeEach {members : List Selection}
    (each : ∀ member ∈ members, member.write = List.intercalate [' '] member.words) :
    List.intercalate [' '] (writeEach members) = List.intercalate [' '] (allWords members) := by
  induction members with
  | nil => rfl
  | cons member rest inductionHypothesis =>
      have own := each member List.mem_cons_self
      cases rest with
      | nil => simp [writeEach, allWords, own]
      | cons next others =>
          have joined := inductionHypothesis fun other included =>
            each other (List.mem_cons_of_mem member included)
          rw [allWords, intercalate_append (words_ne_nil member) (allWords_ne_nil (by simp)),
            ← joined, ← own]
          simp [writeEach, List.intercalate_cons_cons]

theorem surround_eq_intercalate {members : List Selection} (nonempty : members ≠ [])
    (each : ∀ member ∈ members, member.write = List.intercalate [' '] member.words) :
    surround (writeEach members) = List.intercalate [' '] (setWords members) := by
  have closed : List.intercalate [' '] (allWords members ++ [['}']]) =
      List.intercalate [' '] (allWords members) ++ [' ', '}'] := by
    rw [intercalate_append (allWords_ne_nil nonempty) (by simp)]
    simp
  have opened : List.intercalate [' '] (['{'] :: (allWords members ++ [['}']])) =
      List.intercalate [' '] [['{']] ++ [' '] ++
        List.intercalate [' '] (allWords members ++ [['}']]) := by
    apply intercalate_append (List.cons_ne_nil ['{'] [])
    exact List.append_ne_nil_of_right_ne_nil _ (List.cons_ne_nil ['}'] [])
  rw [closed] at opened
  rw [surround, intercalate_writeEach each, setWords, opened]
  simp

theorem write_eq_intercalate {selection : Selection} (filled : selection.IsFilled) :
    selection.write = List.intercalate [' '] selection.words := by
  induction filled with
  | leaf field => simp [write, words]
  | @nested field members nonempty _ inductionHypothesis =>
      have inside := surround_eq_intercalate nonempty inductionHypothesis
      rw [write, inside, words, ← setWords, setWords, List.intercalate_cons_cons]
      simp

theorem writeSet_eq_nil_iff {members : List Selection} : writeSet members = [] ↔ members = [] := by
  cases members with
  | nil => simp [writeSet]
  | cons => simp [writeSet, surround]

/-- The text of selections is made of their words, with a blank between every two. -/
theorem writeSet_eq_intercalate {members : List Selection} (nonempty : members ≠ [])
    (filled : ∀ member ∈ members, member.IsFilled) :
    writeSet members = List.intercalate [' '] (setWords members) := by
  rw [writeSet, if_neg (by simpa using nonempty)]
  apply surround_eq_intercalate nonempty
  intro member included
  exact write_eq_intercalate (filled member included)

end Toolsmith.Selection

import Toolsmith.FileTree
import Toolsmith.Proofs.Outcome

/-!
Files that are written and read again. Writing makes the directories that are missing and sets one
file; nothing is taken away, so every path that led to a place still leads there. The path that is
written to reads as the text, and so do all others that lead to the same place; what is read from
any other place is what was read before.
-/

set_option autoImplicit false

namespace Toolsmith.FileTree

variable {tree later written : FileTree} {path place : Path} {text : String}

/-! Files. -/

theorem lookup_putFile (path other : Path) (text : String) (files : List (Path × String)) :
    (putFile path text files).lookup other =
      if other = path then some text else files.lookup other := by
  induction files with
  | nil => by_cases same : other = path <;> simp [putFile, same]
  | cons file rest inductionHypothesis =>
      obtain ⟨first, content⟩ := file
      rw [putFile]
      by_cases found : first = path
      · rw [if_pos found]
        by_cases same : other = path
        · simp [same]
        · have different : other ≠ first := found ▸ same
          simp [List.lookup_cons, beq_false_of_ne same, beq_false_of_ne different, same]
      · rw [if_neg found, List.lookup_cons, inductionHypothesis, List.lookup_cons]
        by_cases same : other = path
        · have different : other ≠ first := fun equal => found (equal ▸ same)
          simp [same, beq_false_of_ne (same ▸ different)]
        · simp [same]

theorem subset_putFile (path : Path) (text : String) (files : List (Path × String)) :
    files.map Prod.fst ⊆ (putFile path text files).map Prod.fst := by
  induction files with
  | nil => exact List.nil_subset _
  | cons file rest inductionHypothesis =>
      rw [putFile]
      split
      · rename_i found
        rw [List.map_cons, List.map_cons, found]
        exact List.Subset.refl _
      · exact List.cons_subset_cons _ inductionHypothesis

/-! Directories. -/

/-- Every file and every directory of a tree is still there in a later one. -/
structure Keeps (tree later : FileTree) : Prop where
  files : tree.files.map Prod.fst ⊆ later.files.map Prod.fst
  directories : tree.directories ⊆ later.directories

theorem Keeps.refl (tree : FileTree) : tree.Keeps tree :=
  ⟨List.Subset.refl _, List.Subset.refl _⟩

theorem Keeps.trans {last : FileTree} (first : tree.Keeps later) (second : later.Keeps last) :
    tree.Keeps last :=
  ⟨List.Subset.trans first.files second.files,
    List.Subset.trans first.directories second.directories⟩

theorem Keeps.hasDirectory (keeps : tree.Keeps later) (found : tree.hasDirectory path = true) :
    later.hasDirectory path = true := by
  simp only [FileTree.hasDirectory, Bool.or_eq_true, List.contains_iff_mem, List.any_eq_true,
    Prod.exists] at found ⊢
  rcases found with (outside | made) | ⟨file, content, member, below⟩
  · exact .inl (.inl outside)
  · exact .inl (.inr (keeps.directories made))
  · obtain ⟨⟨_, other⟩, included, rfl⟩ :=
      List.mem_map.mp (keeps.files (List.mem_map_of_mem member))
    exact .inr ⟨_, other, included, below⟩

theorem Keeps.enter (keeps : tree.Keeps later) {root : PathRoot} {place next : List String}
    {part : String} (entered : tree.enter root place part = .ok next) :
    later.enter root place part = .ok next := by
  simp only [FileTree.enter] at entered ⊢
  split at entered
  · rename_i outwards
    rwa [if_pos outwards]
  · rename_i inwards
    split at entered
    · rename_i found
      rwa [if_neg inwards, if_pos (keeps.hasDirectory found)]
    · split at entered
      · contradiction
      · split at entered <;> contradiction

/-- A way through directories stays open. -/
theorem Keeps.walk (keeps : tree.Keeps later) {root : PathRoot} {parts place : List String}
    (walked : tree.walk root parts = .ok place) : later.walk root parts = .ok place := by
  unfold FileTree.walk at walked ⊢
  generalize ([] : List String) = start at walked ⊢
  induction parts generalizing start with
  | nil => exact walked
  | cons part rest inductionHypothesis =>
      rw [List.foldlM_cons, Except.bind_eq_ok_iff] at walked
      obtain ⟨next, entered, walked⟩ := walked
      rw [List.foldlM_cons, keeps.enter entered]
      exact inductionHypothesis next walked

/-! Places. -/

/-- A path leads to the place that its last part names in the directory it lies in. -/
def LeadsTo (tree : FileTree) (path place : Path) : Prop :=
  ∃ directory name, tree.walk path.root path.directory = .ok directory ∧
    path.name? = some name ∧ ⟨path.root, (name :: directory).reverse⟩ = place

theorem LeadsTo.read? (leads : tree.LeadsTo path place) : tree.read? path = tree.file? place := by
  obtain ⟨directory, name, walked, named, rfl⟩ := leads
  simp only [FileTree.read?, walked, named]

theorem Keeps.leadsTo (keeps : tree.Keeps later) (leads : tree.LeadsTo path place) :
    later.LeadsTo path place := by
  obtain ⟨directory, name, walked, named, same⟩ := leads
  exact ⟨directory, name, keeps.walk walked, named, same⟩

/-! Writing. -/

/-- Nothing but directories was made. -/
structure Makes (tree made : FileTree) : Prop where
  files : made.files = tree.files
  directories : tree.directories ⊆ made.directories

theorem Makes.keeps (makes : tree.Makes later) : tree.Keeps later :=
  ⟨makes.files ▸ List.Subset.refl _, makes.directories⟩

theorem Makes.trans {last : FileTree} (first : tree.Makes later) (second : later.Makes last) :
    tree.Makes last :=
  ⟨second.files.trans first.files, List.Subset.trans first.directories second.directories⟩

theorem makes_makeDirectory {root : PathRoot} {outer : List String} {name : String}
    (ok : tree.makeDirectory root outer name = .ok later) : tree.Makes later := by
  obtain ⟨place, _, made⟩ := Except.bind_eq_ok_iff.mp ok
  dsimp only at made
  split at made
  · obtain rfl := Except.ok.inj made
    exact ⟨rfl, List.Subset.refl _⟩
  · split at made
    · contradiction
    · split at made
      · contradiction
      · obtain rfl := Except.ok.inj made
        exact ⟨rfl, List.subset_cons_self _ _⟩

theorem makes_makeDirectories {root : PathRoot} {parts : List String}
    (ok : tree.makeDirectories root parts = .ok later) : tree.Makes later := by
  induction parts generalizing later with
  | nil =>
      obtain rfl := Except.ok.inj ok
      exact ⟨rfl, List.Subset.refl _⟩
  | cons name outer inductionHypothesis =>
      rw [makeDirectories] at ok
      split at ok
      · obtain ⟨around, aroundOk, made⟩ := Except.bind_eq_ok_iff.mp ok
        exact (inductionHypothesis aroundOk).trans (makes_makeDirectory made)
      · exact makes_makeDirectory ok

/-- What is written is one file, at the place that the path leads to once directories are made. -/
theorem exists_of_write (ok : tree.write path text = .ok written) :
    ∃ made place, tree.Makes made ∧ made.LeadsTo path place ∧
      written = { made with files := putFile place text made.files } := by
  rw [write] at ok
  split at ok
  · contradiction
  · split at ok
    · contradiction
    · rename_i name named
      simp only [Except.bind_eq_ok_iff] at ok
      obtain ⟨made, madeOk, directory, walked, ok⟩ := ok
      refine ⟨made, _, makes_makeDirectories madeOk, ⟨directory, name, walked, named, rfl⟩, ?_⟩
      rw [writeInto] at ok
      split at ok
      · contradiction
      · split at ok
        · contradiction
        · split at ok
          · contradiction
          · exact (Except.ok.inj ok).symm

theorem exists_writeInto {root : PathRoot} {directory : List String} {name : String}
    (ok : tree.writeInto root directory name text = .ok written) (other : String) :
    ∃ written, tree.writeInto root directory name other = .ok written := by
  simp only [writeInto] at ok ⊢
  split at ok
  · contradiction
  · rename_i noNul
    split at ok
    · contradiction
    · rename_i noDirectory
      split at ok
      · contradiction
      · rename_i short
        rw [if_neg noNul, if_neg noDirectory, if_neg short]
        exact ⟨_, rfl⟩

/-- Whether a file can be written does not hang on its text. -/
theorem exists_write (ok : tree.write path text = .ok written) (other : String) :
    ∃ written, tree.write path other = .ok written := by
  rw [write] at ok ⊢
  split at ok
  · contradiction
  · rename_i noNul
    rw [if_neg noNul]
    split at ok
    · contradiction
    · simp only [Except.bind_eq_ok_iff] at ok ⊢
      obtain ⟨made, madeOk, directory, walked, ok⟩ := ok
      obtain ⟨written, otherOk⟩ := exists_writeInto ok other
      exact ⟨written, made, madeOk, directory, walked, otherOk⟩

/-- The path that was written to reads as the text. So does every other one that leads to the same
place, and all others read as before. -/
theorem read?_of_write (ok : tree.write path text = .ok written) :
    written.read? path = some text ∧
      ∃ place, written.LeadsTo path place ∧
        ∀ other there, tree.LeadsTo other there →
          written.read? other = if there = place then some text else tree.read? other := by
  obtain ⟨made, place, makes, leads, rfl⟩ := exists_of_write ok
  let written : FileTree := { made with files := putFile place text made.files }
  have keeps : made.Keeps written := ⟨subset_putFile place text made.files, List.Subset.refl _⟩
  have file? (there : Path) :
      written.file? there = if there = place then some text else tree.file? there := by
    rw [FileTree.file?, FileTree.file?, ← makes.files]
    exact lookup_putFile place there text made.files
  refine ⟨?_, place, keeps.leadsTo leads, fun other there leadsThere => ?_⟩
  · rw [(keeps.leadsTo leads).read?, file?, if_pos rfl]
  · rw [((makes.keeps.trans keeps).leadsTo leadsThere).read?, file?, leadsThere.read?]

/-! Files as a program sees them. -/

/-- What nothing keeps from being written is there afterwards, unless it is the sample schema that
lies at the path. -/
theorem read?_toFiles_of_written {schemaPath : Path}
    (free : (tree.toFiles schemaPath).obstacle? path = none) (beside : path ≠ schemaPath)
    (text : String) :
    ((tree.writeAll [(path, text)]).toFiles schemaPath).read? path = some (.text text) := by
  simp only [toFiles] at free
  split at free
  · contradiction
  · rename_i ok
    obtain ⟨written, ok⟩ := exists_write ok text
    have after : tree.writeAll [(path, text)] = written := by
      simp only [writeAll, List.foldl_cons, List.foldl_nil, ok]
      rfl
    simp only [toFiles, after, if_neg beside, (read?_of_write ok).1, Option.map_some]

end Toolsmith.FileTree

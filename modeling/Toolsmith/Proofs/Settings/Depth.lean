import Toolsmith.Proofs.Number.Integer
import Toolsmith.Proofs.Outcome
import Toolsmith.Settings

/-!
The depth among the settings. It is the integer that the text of its variable denotes, and it is
refused if there is none or if it is negative. Without a text there is a default, and no other
variable has a say.
-/

set_option autoImplicit false

namespace Toolsmith

theorem Environment.nonempty?_eq_some_iff {environment : Environment} {key text : String} :
    environment.nonempty? key = some text ↔ environment.get? key = some text ∧ text ≠ "" := by
  rw [nonempty?, Option.filter_eq_some_iff, decide_eq_true_eq]

theorem Environment.nonempty?_eq_none_iff {environment : Environment} {key : String} :
    environment.nonempty? key = none ↔
      environment.get? key = none ∨ environment.get? key = some "" := by
  unfold nonempty?
  cases environment.get? key with
  | none => simp
  | some text => simp [Option.filter_eq_none_iff]

namespace Settings

theorem readDepth_eq_error_iff {text : String} {error : SettingsError} :
    readDepth text = .error error ↔
      (error = .notInteger text ∧ ∀ n, ¬ Integer.Denotes text n) ∨
        ∃ depth, Integer.Denotes text depth ∧ depth < 0 ∧ error = .negative depth := by
  simp only [← Integer.read?_eq_some_iff, readDepth]
  cases Integer.read? text with
  | none => simp [eq_comm]
  | some depth =>
      by_cases negative : depth < 0
      · simp [negative, eq_comm]
      · simp [negative]

theorem readDepth_eq_ok_iff {text : String} {depth : Int} :
    readDepth text = .ok depth ↔ Integer.Denotes text depth ∧ 0 ≤ depth := by
  simp only [← Integer.read?_eq_some_iff, readDepth]
  cases Integer.read? text with
  | none => simp
  | some found =>
      by_cases negative : found < 0
      · simp only [if_pos negative, reduceCtorEq, Option.some.injEq, false_iff, not_and]
        rintro rfl
        exact not_le_of_gt negative
      · simp only [if_neg negative, Except.ok.injEq, Option.some.injEq]
        constructor
        · rintro rfl
          exact ⟨rfl, not_lt.mp negative⟩
        · exact And.left

theorem depthOf_eq_error_iff {environment : Environment} {error : SettingsError} :
    depthOf environment = .error error ↔
      ∃ text, environment.nonempty? depthVariable = some text ∧ readDepth text = .error error := by
  unfold depthOf
  cases environment.nonempty? depthVariable with
  | none => simp
  | some text => simp

theorem depthOf_eq_ok_iff {environment : Environment} {depth : Int} :
    depthOf environment = .ok depth ↔
      (∃ text, environment.nonempty? depthVariable = some text ∧ readDepth text = .ok depth) ∨
        (environment.nonempty? depthVariable = none ∧
          depth = SelectionPolicy.standard.maxDepth) := by
  unfold depthOf
  cases environment.nonempty? depthVariable with
  | none => simp [eq_comm]
  | some text => simp

/-- The depth is the only one among the settings that can be refused. -/
theorem map_maxDepth_ofEnvironment (environment : Environment) :
    (ofEnvironment environment).map (fun settings => settings.policy.maxDepth) =
      depthOf environment := by
  rw [ofEnvironment]
  cases depthOf environment with
  | error error => rfl
  | ok depth => rfl

theorem ofEnvironment_eq_error_iff {environment : Environment} {error : SettingsError} :
    ofEnvironment environment = .error error ↔ depthOf environment = .error error := by
  rw [← map_maxDepth_ofEnvironment]
  cases ofEnvironment environment with
  | error other => simp [Except.map]
  | ok settings => simp [Except.map]

theorem exists_ofEnvironment_iff {environment : Environment} {depth : Int} :
    (∃ settings, ofEnvironment environment = .ok settings ∧ settings.policy.maxDepth = depth) ↔
      depthOf environment = .ok depth := by
  rw [← map_maxDepth_ofEnvironment, Except.map_eq_ok_iff]

/-- An environment is refused exactly when its text for the depth denotes no integer or a negative
one. Otherwise the depth is what the text denotes, or the default if there is no text. So it is
never negative; the decimal text of a natural number gives that number, whatever zeros stand in
front and whatever white space stands around; and an environment that differs in other variables
only has the same depth or is refused for the same reason. -/
theorem depth_of_environment (environment : Environment) :
    (∀ error, ofEnvironment environment = .error error ↔
        ∃ text, environment.get? depthVariable = some text ∧ text ≠ "" ∧
          ((error = .notInteger text ∧ ∀ n, ¬ Integer.Denotes text n) ∨
            ∃ depth, Integer.Denotes text depth ∧ depth < 0 ∧ error = .negative depth)) ∧
      (∀ depth,
        (∃ settings, ofEnvironment environment = .ok settings ∧
            settings.policy.maxDepth = depth) ↔
          (∃ text, environment.get? depthVariable = some text ∧ text ≠ "" ∧
              Integer.Denotes text depth ∧ 0 ≤ depth) ∨
            ((environment.get? depthVariable = none ∨ environment.get? depthVariable = some "") ∧
              depth = SelectionPolicy.standard.maxDepth)) ∧
      (∀ settings, ofEnvironment environment = .ok settings → 0 ≤ settings.policy.maxDepth) ∧
      (∀ (zeros n : Nat) (front back : List Char),
        (∀ c ∈ front, Text.isWhitespace c = true) → (∀ c ∈ back, Text.isWhitespace c = true) →
        environment.get? depthVariable =
            some (String.ofList
              (front ++ (List.replicate zeros '0' ++ Nat.toDigits 10 n) ++ back)) →
        ∃ settings, ofEnvironment environment = .ok settings ∧ settings.policy.maxDepth = n) ∧
      ∀ other : Environment, other.get? depthVariable = environment.get? depthVariable →
        (ofEnvironment other).map (fun settings => settings.policy.maxDepth) =
          (ofEnvironment environment).map (fun settings => settings.policy.maxDepth) := by
  have accepted (depth : Int) :
      depthOf environment = .ok depth ↔
        (∃ text, environment.get? depthVariable = some text ∧ text ≠ "" ∧
            Integer.Denotes text depth ∧ 0 ≤ depth) ∨
          ((environment.get? depthVariable = none ∨ environment.get? depthVariable = some "") ∧
            depth = SelectionPolicy.standard.maxDepth) := by
    simp only [depthOf_eq_ok_iff, readDepth_eq_ok_iff, Environment.nonempty?_eq_some_iff,
      Environment.nonempty?_eq_none_iff, and_assoc]
  refine ⟨fun error => ?_, fun depth => ?_, fun settings ok => ?_, ?_, fun other same => ?_⟩
  · simp only [ofEnvironment_eq_error_iff, depthOf_eq_error_iff, readDepth_eq_error_iff,
      Environment.nonempty?_eq_some_iff, and_assoc]
  · rw [exists_ofEnvironment_iff, accepted]
  · have depth := exists_ofEnvironment_iff.mp ⟨settings, ok, rfl⟩
    rcases (accepted _).mp depth with ⟨_, _, _, _, natural⟩ | ⟨_, default⟩
    · exact natural
    · rw [default]
      decide
  · intro zeros n front back before behind found
    rw [exists_ofEnvironment_iff, accepted]
    refine .inl ⟨_, found, ?_, Integer.denotes_toDigits zeros n before behind,
      Int.natCast_nonneg n⟩
    rw [Ne, ← String.toList_eq_nil_iff, String.toList_ofList]
    apply List.append_ne_nil_of_left_ne_nil
    apply List.append_ne_nil_of_right_ne_nil
    exact List.append_ne_nil_of_right_ne_nil _ Nat.toDigits_ne_nil
  · rw [map_maxDepth_ofEnvironment, map_maxDepth_ofEnvironment, depthOf, depthOf,
      Environment.nonempty?, Environment.nonempty?, same]

/-- Digits of two scripts with an underscore between them, a sign and white space. -/
theorem depth_of_environment_sample :
    (∃ settings,
        ofEnvironment
            [("GQLBRIDGE_EXCLUDED_FIELDS", "-1"),
              ("GQLBRIDGE_SELECTION_DEPTH", "\u3000+0_\u0664\n")] = .ok settings ∧
          settings.policy.maxDepth = 4) ∧
      (∃ settings,
        ofEnvironment [("GQLBRIDGE_SELECTION_DEPTH", "\t0012\u2003")] = .ok settings ∧
          settings.policy.maxDepth = 12) ∧
      ofEnvironment [("GQLBRIDGE_SELECTION_DEPTH", "-1")] = .error (.negative (-1)) := by
  have mixed : Integer.Spells ['0', '_', '\u0664'] [0, 4] :=
    .underscore (by decide) (.digit (by decide))
  have written : Integer.Denotes "\u3000+0_\u0664\n" 4 :=
    ⟨['\u3000'], _, ['\n'], rfl, List.forall_mem_singleton.mpr rfl,
      List.forall_mem_singleton.mpr rfl, .plus mixed⟩
  have one : Integer.Spells ['1'] [1] := .digit (by decide)
  have negative : Integer.Denotes "-1" (-1) :=
    ⟨[], _, [], rfl, List.forall_mem_nil _, List.forall_mem_nil _, .minus one⟩
  refine ⟨?_, ?_, ?_⟩
  · apply ((depth_of_environment _).2.1 4).mpr
    exact .inl ⟨_, rfl, by decide, written, by decide⟩
  · apply (depth_of_environment _).2.2.2.1 2 12 ['\t'] ['\u2003']
    · exact List.forall_mem_singleton.mpr rfl
    · exact List.forall_mem_singleton.mpr rfl
    · decide +kernel
  · apply ((depth_of_environment _).1 _).mpr
    exact ⟨_, rfl, by decide, .inr ⟨-1, negative, by decide, rfl⟩⟩

end Settings

end Toolsmith

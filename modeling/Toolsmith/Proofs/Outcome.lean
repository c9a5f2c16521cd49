import Mathlib.Data.List.Forall2

/-!
When a computation that may fail gives a result, told from its steps.
-/

set_option autoImplicit false

namespace Except

variable {ε α β : Type}

theorem bind_eq_ok_iff {computed : Except ε α} {next : α → Except ε β} {result : β} :
    computed >>= next = .ok result ↔ ∃ value, computed = .ok value ∧ next value = .ok result := by
  cases computed with
  | error _ => simp [bind, Except.bind]
  | ok _ => simp [bind, Except.bind]

theorem map_eq_ok_iff {computed : Except ε α} {change : α → β} {result : β} :
    computed.map change = .ok result ↔ ∃ value, computed = .ok value ∧ change value = result := by
  cases computed with
  | error _ => simp [Except.map]
  | ok _ => simp [Except.map]

theorem mapError_eq_ok_iff {γ : Type} {computed : Except ε α} {change : ε → γ} {result : α} :
    computed.mapError change = .ok result ↔ computed = .ok result := by
  cases computed with
  | error _ =>
      constructor
      · intro impossible
        contradiction
      · intro impossible
        contradiction
  | ok _ =>
      constructor
      · intro same
        rw [Except.ok.inj same]
      · intro same
        rw [Except.ok.inj same]
        rfl

theorem toOption_eq_some_iff {computed : Except ε α} {result : α} :
    computed.toOption = some result ↔ computed = .ok result := by
  cases computed <;> simp [Except.toOption]

/-- All items give a result exactly when each one does. -/
theorem exists_mapM_eq_ok_iff {item : α → Except ε β} {items : List α} :
    (∃ results, items.mapM item = .ok results) ↔ ∀ x ∈ items, ∃ result, item x = .ok result := by
  induction items with
  | nil => simp [pure, Except.pure]
  | cons head rest inductionHypothesis =>
      rw [List.forall_mem_cons, ← inductionHypothesis]
      simp only [List.mapM_cons, bind_eq_ok_iff]
      constructor
      · rintro ⟨_, first, firstOk, others, othersOk, _⟩
        exact ⟨⟨first, firstOk⟩, ⟨others, othersOk⟩⟩
      · rintro ⟨⟨first, firstOk⟩, ⟨others, othersOk⟩⟩
        exact ⟨first :: others, first, firstOk, others, othersOk, rfl⟩

/-- All items together give the results that each one gives. -/
theorem mapM_eq_ok_iff {item : α → Except ε β} {items : List α} {results : List β} :
    items.mapM item = .ok results ↔
      List.Forall₂ (fun x result => item x = .ok result) items results := by
  induction items generalizing results with
  | nil =>
      cases results with
      | nil => simp [pure, Except.pure]
      | cons first others => simp [pure, Except.pure]
  | cons head rest inductionHypothesis =>
      simp only [List.mapM_cons, bind_eq_ok_iff, inductionHypothesis]
      constructor
      · rintro ⟨first, firstOk, others, othersOk, collected⟩
        obtain rfl := Except.ok.inj collected
        exact .cons firstOk othersOk
      · intro each
        cases each with
        | cons firstOk othersOk => exact ⟨_, firstOk, _, othersOk, rfl⟩

/-- What is the same for each item and its result is the same for all of them. -/
theorem map_eq_map_of_mapM {γ : Type} {item : α → Except ε β} {before : α → γ} {after : β → γ}
    (same : ∀ x result, item x = .ok result → after result = before x)
    {items : List α} {results : List β} (ok : items.mapM item = .ok results) :
    results.map after = items.map before := by
  induction items generalizing results with
  | nil =>
      obtain rfl := Except.ok.inj ok
      rfl
  | cons head rest inductionHypothesis =>
      simp only [List.mapM_cons, bind_eq_ok_iff] at ok
      obtain ⟨first, firstOk, others, othersOk, collected⟩ := ok
      obtain rfl := Except.ok.inj collected
      rw [List.map_cons, List.map_cons, same head first firstOk, inductionHypothesis othersOk]

/-- What holds of an item whenever it holds of its result holds of all of them together. -/
theorem forall_mem_iff_of_mapM {item : α → Except ε β} {before : α → Prop} {after : β → Prop}
    (same : ∀ x result, item x = .ok result → (after result ↔ before x))
    {items : List α} {results : List β} (ok : items.mapM item = .ok results) :
    (∀ result ∈ results, after result) ↔ ∀ x ∈ items, before x := by
  have each := mapM_eq_ok_iff.mp ok
  clear ok
  induction each with
  | nil => simp
  | cons firstOk _ inductionHypothesis =>
      rw [List.forall_mem_cons, List.forall_mem_cons]
      exact and_congr (same _ _ firstOk) inductionHypothesis

theorem exists_of_mem_mapM {item : α → Except ε β} {items : List α} {results : List β}
    (ok : items.mapM item = .ok results) {result : β} (member : result ∈ results) :
    ∃ x ∈ items, item x = .ok result := by
  obtain ⟨sameLength, each⟩ := List.forall₂_iff_get.mp (mapM_eq_ok_iff.mp ok)
  obtain ⟨i, inside, rfl⟩ := List.getElem_of_mem member
  exact ⟨_, List.get_mem items ⟨i, sameLength ▸ inside⟩, each i (sameLength ▸ inside) inside⟩

theorem exists_mem_of_mapM {item : α → Except ε β} {items : List α} {results : List β}
    (ok : items.mapM item = .ok results) {x : α} (member : x ∈ items) :
    ∃ result ∈ results, item x = .ok result := by
  obtain ⟨sameLength, each⟩ := List.forall₂_iff_get.mp (mapM_eq_ok_iff.mp ok)
  obtain ⟨i, inside, rfl⟩ := List.getElem_of_mem member
  exact ⟨_, List.get_mem results ⟨i, sameLength ▸ inside⟩, each i inside (sameLength ▸ inside)⟩

theorem mapM_congr {item other : α → Except ε β} {items : List α}
    (same : ∀ x ∈ items, item x = other x) : items.mapM item = items.mapM other := by
  induction items with
  | nil => rfl
  | cons head rest inductionHypothesis =>
      obtain ⟨first, others⟩ := List.forall_mem_cons.mp same
      rw [List.mapM_cons, List.mapM_cons, first, inductionHypothesis others]

/-- A result that was computed and looked at. -/
theorem exists_eq_ok_of_any (computed : Except ε α) (holds : α → Bool)
    (checked : computed.toOption.any holds = true) :
    ∃ value, computed = .ok value ∧ holds value = true := by
  cases computed with
  | error _ => simp [Except.toOption] at checked
  | ok value => exact ⟨value, rfl, by simpa [Except.toOption] using checked⟩

end Except

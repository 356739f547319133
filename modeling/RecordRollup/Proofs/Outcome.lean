import Mathlib

namespace RecordRollup

variable {ε α β : Type} {outcome : Except ε α} {result : β}

theorem map_eq_ok_iff {step : α → β} :
    outcome.map step = .ok result ↔ ∃ value, outcome = .ok value ∧ step value = result := by
  cases outcome <;> simp [Except.map]

theorem map_eq_error_iff {step : α → β} {error : ε} :
    outcome.map step = .error error ↔ outcome = .error error := by
  cases outcome <;> simp [Except.map]

theorem bind_eq_ok_iff {step : α → Except ε β} :
    (outcome >>= step) = .ok result ↔
      ∃ value, outcome = .ok value ∧ step value = .ok result := by
  cases outcome <;> simp [bind, Except.bind]

theorem bind_eq_error_iff {step : α → Except ε β} {error : ε} :
    (outcome >>= step) = .error error ↔
      outcome = .error error ∨ ∃ value, outcome = .ok value ∧ step value = .error error := by
  cases outcome <;> simp [bind, Except.bind]

theorem mapM_eq_ok_iff {items : List α} {results : List β} {step : α → Except ε β} :
    items.mapM step = .ok results ↔
      List.Forall₂ (fun item result => step item = .ok result) items results := by
  induction items generalizing results with
  | nil => simp [pure, Except.pure, eq_comm]
  | cons item items ih =>
      simp only [List.mapM_cons, bind_eq_ok_iff, ih, List.forall₂_cons_left_iff, pure, Except.pure,
        Except.ok.injEq]
      constructor
      · rintro ⟨first, hfirst, others, hothers, rfl⟩
        exact ⟨first, others, hfirst, hothers, rfl⟩
      · rintro ⟨first, others, hfirst, hothers, rfl⟩
        exact ⟨first, hfirst, others, hothers, rfl⟩

theorem exists_of_mapM_eq_error {items : List α} {step : α → Except ε β} {error : ε}
    (herror : items.mapM step = .error error) : ∃ item ∈ items, step item = .error error := by
  induction items with
  | nil => cases herror
  | cons item items ih =>
      rw [List.mapM_cons, bind_eq_error_iff] at herror
      rcases herror with hfirst | ⟨value, -, hrest⟩
      · exact ⟨item, List.mem_cons_self, hfirst⟩
      · rcases bind_eq_error_iff.mp hrest with hothers | ⟨values, -, hnone⟩
        · obtain ⟨other, hmem, hother⟩ := ih hothers
          exact ⟨other, List.mem_cons_of_mem item hmem, hother⟩
        · cases hnone

end RecordRollup

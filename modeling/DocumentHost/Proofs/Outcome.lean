import Mathlib.Data.List.Forall2

/-!
# Outcomes that may be failures

When a composed piece of work succeeds, all its parts have succeeded.
-/

namespace DocumentHost.Outcome

variable {ε α β : Type}

theorem bind_eq_ok_iff {work : Except ε α} {next : α → Except ε β} {result : β} :
    (work >>= next) = .ok result ↔ ∃ value, work = .ok value ∧ next value = .ok result := by
  cases work with
  | error error => simp [bind, Except.bind]
  | ok value => simp [bind, Except.bind]

theorem map_eq_ok_iff {work : Except ε α} {change : α → β} {result : β} :
    work.map change = .ok result ↔ ∃ value, work = .ok value ∧ change value = result := by
  cases work <;> simp [Except.map]

theorem mapError_eq_error_iff {ε' : Type} {work : Except ε α} {rephrase : ε → ε'} {error : ε'} :
    work.mapError rephrase = .error error ↔
      ∃ raised, work = .error raised ∧ error = rephrase raised := by
  cases work <;> simp [Except.mapError, eq_comm]

theorem pure_eq_ok_iff {value result : α} :
    (pure value : Except ε α) = .ok result ↔ value = result := by
  constructor
  · intro equal
    cases equal
    rfl
  · rintro rfl
    rfl

/-- Work that is refused on a condition succeeds if the condition does not hold. -/
theorem refuse_eq_ok_iff {γ : Type} {condition : Prop} [Decidable condition] {error : ε}
    {next : γ → Except ε β} {work : Except ε β} {result : β} :
    (if condition then throw error >>= next else work) = .ok result ↔
      ¬condition ∧ work = .ok result := by
  by_cases refused : condition
  · simp [refused, throw, throwThe, MonadExceptOf.throw, bind, Except.bind]
  · simp [refused]

/-- Work on every item of a list succeeds if it does for each of them. -/
theorem mapM_eq_ok_iff {work : α → Except ε β} {items : List α} {results : List β} :
    items.mapM work = .ok results ↔
      List.Forall₂ (fun item result => work item = .ok result) items results := by
  induction items generalizing results with
  | nil =>
      rw [List.mapM_nil, pure_eq_ok_iff, List.forall₂_nil_left_iff, eq_comm]
  | cons item rest ih =>
      rw [List.mapM_cons, bind_eq_ok_iff, List.forall₂_cons_left_iff]
      simp only [bind_eq_ok_iff, pure_eq_ok_iff, ih]
      constructor
      · rintro ⟨first, succeeded, others, restSucceeded, rfl⟩
        exact ⟨first, others, succeeded, restSucceeded, rfl⟩
      · rintro ⟨first, others, succeeded, restSucceeded, rfl⟩
        exact ⟨first, succeeded, others, restSucceeded, rfl⟩

end DocumentHost.Outcome

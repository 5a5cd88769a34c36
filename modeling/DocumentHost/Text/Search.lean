/-!
# Finding a text in a text

A pattern is found at its first occurrence, and the text falls into the part
before it and the part behind it.
-/

namespace DocumentHost.Text

variable {α : Type} [DecidableEq α]

/-- What is left of a text behind a beginning, if the text has that beginning. -/
def behindFront? : List α → List α → Option (List α)
  | [], text => some text
  | _ :: _, [] => none
  | first :: pattern, head :: text =>
      if first = head then behindFront? pattern text else none

/-- The parts of a text before and behind the first occurrence of a pattern. -/
def cutAt? (pattern : List α) : List α → Option (List α × List α)
  | [] => (behindFront? pattern []).map fun behind => ([], behind)
  | head :: text =>
      match behindFront? pattern (head :: text) with
      | some behind => some ([], behind)
      | none => (cutAt? pattern text).map fun (before, behind) => (head :: before, behind)

theorem behindFront?_eq_some_iff {pattern text behind : List α} :
    behindFront? pattern text = some behind ↔ text = pattern ++ behind := by
  induction pattern generalizing text with
  | nil => simp [behindFront?]
  | cons first pattern ih =>
      cases text with
      | nil => simp [behindFront?]
      | cons head text =>
          by_cases same : first = head
          · subst same
            simp [behindFront?, ih]
          · have differs : ¬head = first := fun equal => same equal.symm
            simp [behindFront?, same, differs]

/-- A cut loses nothing. -/
theorem eq_of_cutAt?_eq_some {pattern text before behind : List α}
    (found : cutAt? pattern text = some (before, behind)) :
    text = before ++ pattern ++ behind := by
  induction text generalizing before with
  | nil =>
      simp only [cutAt?, Option.map_eq_some_iff, Prod.mk.injEq] at found
      obtain ⟨_, front, rfl, rfl⟩ := found
      simpa using behindFront?_eq_some_iff.1 front
  | cons head text ih =>
      simp only [cutAt?] at found
      split at found
      · rename_i front
        simp only [Option.some.injEq, Prod.mk.injEq] at found
        obtain ⟨rfl, rfl⟩ := found
        simpa using behindFront?_eq_some_iff.1 front
      · simp only [Option.map_eq_some_iff, Prod.mk.injEq] at found
        obtain ⟨⟨inner, left⟩, cut, rfl, rfl⟩ := found
        simp [ih cut]

end DocumentHost.Text

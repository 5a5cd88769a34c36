import DocumentHost.Text.Search
import Mathlib.Data.List.Infix

/-!
# First occurrences

A pattern may occur at many places of a text.  The search finds the first of them, and
it finds none just when there is none.
-/

namespace DocumentHost.Text

variable {α : Type}

/-- A text is a part, then the first occurrence of a pattern, then what is left. -/
structure FirstAt (pattern text before behind : List α) : Prop where
  joined : text = before ++ pattern ++ behind
  earliest : ∀ other rest, text = other ++ pattern ++ rest → before.length ≤ other.length

namespace FirstAt

variable {pattern text before behind : List α}

/-- There is one first occurrence at most. -/
theorem unique {otherBefore otherBehind : List α} (first : FirstAt pattern text before behind)
    (second : FirstAt pattern text otherBefore otherBehind) :
    before = otherBefore ∧ behind = otherBehind := by
  have noLater := first.earliest _ _ second.joined
  have noEarlier := second.earliest _ _ first.joined
  have joined := first.joined.symm.trans second.joined
  rw [List.append_assoc, List.append_assoc] at joined
  obtain ⟨sameFront, sameRest⟩ := List.append_inj joined (by omega)
  exact ⟨sameFront, List.append_cancel_left sameRest⟩

theorem isInfix (first : FirstAt pattern text before behind) : pattern <:+: text :=
  ⟨before, behind, first.joined.symm⟩

theorem length_lt (first : FirstAt pattern text before behind) (nonempty : pattern ≠ []) :
    behind.length < text.length := by
  have room := List.length_pos_iff.2 nonempty
  rw [first.joined]
  simp only [List.length_append]
  omega

theorem length_le (first : FirstAt pattern text before behind) :
    behind.length ≤ text.length := by
  rw [first.joined]
  simp only [List.length_append]
  omega

/-- A pattern at the front of a text occurs there first. -/
theorem front (joined : text = pattern ++ behind) : FirstAt pattern text [] behind :=
  ⟨joined, fun _ _ _ => Nat.zero_le _⟩

/-- Where a text does not begin with the pattern, the occurrences are those in its
tail. -/
theorem cons {head : α} (noFront : ¬pattern <+: head :: text)
    (first : FirstAt pattern text before behind) :
    FirstAt pattern (head :: text) (head :: before) behind := by
  refine ⟨by rw [first.joined]; simp, ?_⟩
  intro other rest joined
  cases other with
  | nil => exact absurd ⟨rest, joined.symm⟩ noFront
  | cons character other =>
      rw [List.cons_append, List.cons_append, List.cons.injEq] at joined
      exact Nat.succ_le_succ (first.earliest other rest joined.2)

end FirstAt

variable [DecidableEq α]

theorem behindFront?_eq_none_iff {pattern text : List α} :
    behindFront? pattern text = none ↔ ¬pattern <+: text := by
  rw [Option.eq_none_iff_forall_ne_some, List.IsPrefix, not_exists]
  exact forall_congr' fun behind => by rw [ne_eq, behindFront?_eq_some_iff, eq_comm]

/-- What the search finds is the first occurrence. -/
theorem firstAt_of_cutAt? {pattern text before behind : List α}
    (found : cutAt? pattern text = some (before, behind)) :
    FirstAt pattern text before behind := by
  induction text generalizing before with
  | nil =>
      simp only [cutAt?, Option.map_eq_some_iff, Prod.mk.injEq] at found
      obtain ⟨_, front, rfl, rfl⟩ := found
      exact .front (behindFront?_eq_some_iff.1 front)
  | cons head text ih =>
      rw [cutAt?] at found
      split at found
      · rename_i front
        simp only [Option.some.injEq, Prod.mk.injEq] at found
        obtain ⟨rfl, rfl⟩ := found
        exact .front (behindFront?_eq_some_iff.1 front)
      · rename_i noFront
        simp only [Option.map_eq_some_iff, Prod.mk.injEq] at found
        obtain ⟨⟨inner, rest⟩, cut, rfl, rfl⟩ := found
        exact (ih cut).cons (behindFront?_eq_none_iff.1 noFront)

theorem cutAt?_eq_none_iff {pattern text : List α} :
    cutAt? pattern text = none ↔ ¬pattern <:+: text := by
  induction text with
  | nil =>
      rw [cutAt?, Option.map_eq_none_iff, behindFront?_eq_none_iff, List.prefix_nil,
        List.infix_nil]
  | cons head text ih =>
      rw [cutAt?, List.infix_cons_iff, not_or, ← behindFront?_eq_none_iff, ← ih]
      split
      · rename_i front
        simp [front]
      · rename_i noFront
        simp [noFront]

/-- The search finds just the first occurrence. -/
theorem cutAt?_eq_some_iff {pattern text before behind : List α} :
    cutAt? pattern text = some (before, behind) ↔ FirstAt pattern text before behind := by
  refine ⟨firstAt_of_cutAt?, fun first => ?_⟩
  cases found : cutAt? pattern text with
  | none => exact absurd first.isInfix (cutAt?_eq_none_iff.1 found)
  | some parts =>
      obtain ⟨rfl, rfl⟩ := (firstAt_of_cutAt? found).unique first
      rfl

/-- A pattern that occurs occurs first somewhere. -/
theorem exists_firstAt {pattern text : List α} (occurs : pattern <:+: text) :
    ∃ before behind, FirstAt pattern text before behind := by
  cases found : cutAt? pattern text with
  | none => exact absurd occurs (cutAt?_eq_none_iff.1 found)
  | some parts => exact ⟨parts.1, parts.2, firstAt_of_cutAt? found⟩

end DocumentHost.Text

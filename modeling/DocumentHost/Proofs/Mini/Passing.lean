import DocumentHost.Proofs.Mini.Soundness

/-!
# How the reader moves

The reader of programs moves forward over its text and takes its position along.  From one place
to another it passes a run of characters: what was left is that run and what is left now, and
the position has been moved over the run.

A place is bounded by the number of characters that are left there.  Lexemes and blanks keep
within a bound, and every character that is passed allows a smaller one, which is what the fuel
of a reading is measured by.
-/

namespace DocumentHost.Mini

/-- From one cursor to another a run of characters is passed. -/
structure Cursor.Passes (cursor : Cursor) (passed : List Char) (behind : Cursor) : Prop where
  text : cursor.rest = passed ++ behind.rest
  position : behind.position = cursor.position.after passed

namespace Cursor.Passes

variable {cursor middle behind : Cursor} {passed further : List Char}

theorem refl (cursor : Cursor) : cursor.Passes [] cursor :=
  ⟨rfl, rfl⟩

theorem trans (first : cursor.Passes passed middle) (second : middle.Passes further behind) :
    cursor.Passes (passed ++ further) behind where
  text := by rw [first.text, second.text, List.append_assoc]
  position := by rw [second.position, first.position, Position.after_append]

theorem step {character : Char} (next : cursor.rest.head? = some character) :
    cursor.Passes [character] cursor.step where
  text := rest_of_head? next
  position := by
    obtain ⟨rest, shape⟩ := List.head?_eq_some_iff.1 next
    rw [Cursor.step, shape]
    rfl

theorem skip (cursor : Cursor) (test : Char → Bool) :
    cursor.Passes (cursor.front test) (cursor.skip test) where
  text := List.takeWhile_append_dropWhile.symm
  position := rfl

/-- By induction on the text, inside a comment and outside. -/
theorem exists_skipGaps (inComment : Bool) (position : Position) (text : List Char) :
    ∃ gaps, (⟨text, position⟩ : Cursor).Passes gaps (Mini.skipGaps inComment position text) := by
  fun_induction Mini.skipGaps inComment position text with
  | case1 | case5 => exact ⟨[], .refl _⟩
  | case2 | case3 | case4 =>
      rename_i ih
      obtain ⟨gaps, passes⟩ := ih
      exact ⟨_, (step rfl).trans passes⟩

theorem length_eq (passes : cursor.Passes passed behind) :
    cursor.rest.length = passed.length + behind.rest.length := by
  rw [passes.text, List.length_append]

end Cursor.Passes

/-- A place is reached from a cursor, and fewer characters are left there than the limit says. -/
structure Cursor.LeavesFewer (origin : Cursor) (limit : Nat) (place : Cursor) : Prop where
  passes : ∃ front, origin.Passes front place
  fewer : place.rest.length < limit

namespace Cursor.LeavesFewer

variable {origin cursor behind : Cursor} {limit : Nat}

theorem mono {larger : Nat} (leaves : origin.LeavesFewer limit cursor) (le : limit ≤ larger) :
    origin.LeavesFewer larger cursor :=
  ⟨leaves.passes, leaves.fewer.trans_le le⟩

theorem tight (leaves : origin.LeavesFewer limit cursor) :
    origin.LeavesFewer (cursor.rest.length + 1) cursor :=
  ⟨leaves.passes, Nat.lt_succ_self _⟩

theorem trans {passed : List Char} (leaves : origin.LeavesFewer limit cursor)
    (passes : cursor.Passes passed behind) : origin.LeavesFewer limit behind := by
  obtain ⟨⟨front, reached⟩, fewer⟩ := leaves
  have := passes.length_eq
  exact ⟨⟨_, reached.trans passes⟩, by omega⟩

/-- What is left at a cursor is a limit for all that is behind it. -/
theorem beyond {passed : List Char} (leaves : origin.LeavesFewer limit cursor)
    (passes : cursor.Passes passed behind) (nonempty : passed ≠ []) :
    origin.LeavesFewer cursor.rest.length behind where
  passes := (leaves.trans passes).passes
  fewer := by
    have := List.length_pos_iff.2 nonempty
    have := passes.length_eq
    omega

theorem step {character : Char} (leaves : origin.LeavesFewer limit cursor)
    (next : cursor.rest.head? = some character) :
    origin.LeavesFewer cursor.rest.length cursor.step :=
  leaves.beyond (.step next) (List.cons_ne_nil _ _)

theorem skipBlanks (leaves : origin.LeavesFewer limit cursor) :
    origin.LeavesFewer limit cursor.skipBlanks :=
  leaves.trans (.skip cursor Text.isProgramBlank)

theorem skipGaps (leaves : origin.LeavesFewer limit cursor) :
    origin.LeavesFewer limit cursor.skipGaps := by
  obtain ⟨gaps, passes⟩ := Passes.exists_skipGaps false cursor.position cursor.rest
  exact leaves.trans passes

end Cursor.LeavesFewer

end DocumentHost.Mini

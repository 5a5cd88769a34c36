import DocumentHost.Text.Position
import Mathlib.Data.List.DropRight

/-!
# Positions read off the text before them

A position is moved forward character by character, but where it has come to depends on the
text that was passed only: on the line breaks in it, and on what stands behind the last one.
It is a place in a line of the text, or the end of one.
-/

namespace DocumentHost.Position

/-- The position behind a text: a line for each line break, and a column for each character
behind the last of them. -/
def behind (passed : List Char) : Position :=
  ⟨1 + passed.count '\n', 1 + (passed.rtakeWhile (· ≠ '\n')).length⟩

/-- By induction on the text from its end, where the position moves. -/
theorem start_after (passed : List Char) : start.after passed = behind passed := by
  induction passed using List.reverseRecOn with
  | nil => rfl
  | append_singleton passed last ih =>
      rw [after_append, ih, after_cons, after_nil, advance]
      by_cases newline : last = '\n'
      · rw [if_pos newline, behind, behind,
          List.rtakeWhile_concat_neg _ _ _ (by simpa using newline)]
        simp [newline, Nat.add_assoc]
      · rw [if_neg newline, behind, behind,
          List.rtakeWhile_concat_pos _ _ _ (by simpa using newline)]
        simp [newline, Nat.add_assoc]

example : behind "one\ntwö<".toList = ⟨2, 5⟩ := by decide

theorem behind_append (passed further : List Char) :
    behind (passed ++ further) = (behind passed).after further := by
  rw [← start_after, ← start_after, after_append]

/-- Behind more text a line for each line break in it. -/
theorem line_behind_append (passed further : List Char) :
    (behind (passed ++ further)).line = (behind passed).line + further.count '\n' := by
  rw [behind, behind, List.count_append, Nat.add_assoc]

/-! ## Lines -/

/-- A text has a line more than it has line breaks. -/
theorem length_splitOn_newline (text : List Char) :
    (text.splitOn '\n').length = 1 + text.count '\n' := by
  induction text with
  | nil => rfl
  | cons first rest ih =>
      rw [List.splitOn, List.splitOnP_cons_eq_if_modifyHead, ← List.splitOn]
      by_cases newline : first = '\n'
      · simp [newline, ih, Nat.add_assoc]
      · simp [newline, ih]

/-- The first line goes up to the first line break. -/
theorem getElem?_splitOn_newline_zero (text : List Char) :
    (text.splitOn '\n')[0]? = some (text.takeWhile (· ≠ '\n')) := by
  induction text with
  | nil => rfl
  | cons first rest ih =>
      rw [List.splitOn, List.splitOnP_cons_eq_if_modifyHead, ← List.splitOn]
      by_cases newline : first = '\n'
      · simp [newline]
      · simp [newline, ih]

/-- A place in a text is on the line with as many lines in front of it as there are line breaks
in front of the place.  By induction on what stands in front, from its end. -/
theorem getElem?_splitOn_newline (passed rest : List Char) :
    ((passed ++ rest).splitOn '\n')[passed.count '\n']? =
      some (passed.rtakeWhile (· ≠ '\n') ++ rest.takeWhile (· ≠ '\n')) := by
  induction passed using List.reverseRecOn generalizing rest with
  | nil => exact getElem?_splitOn_newline_zero rest
  | append_singleton passed last ih =>
      rw [List.append_assoc, List.singleton_append]
      by_cases newline : last = '\n'
      · subst newline
        rw [List.rtakeWhile_concat_neg _ _ _ (by simp), List.nil_append,
          ← getElem?_splitOn_newline_zero, List.splitOn, List.splitOnP_append_cons _ _ (by simp),
          ← List.splitOn, ← List.splitOn, List.getElem?_append_right]
        all_goals simp [length_splitOn_newline, Nat.add_comm]
      · rw [List.rtakeWhile_concat_pos _ _ _ (by simpa using newline)]
        simpa [newline] using ih (last :: rest)

/-- The position of a place in a text is in a line of the text, or at its end. -/
theorem behind_inside (passed rest : List Char) :
    ∃ line, ((passed ++ rest).splitOn '\n')[(behind passed).line - 1]? = some line ∧
      (behind passed).column ≤ line.length + 1 := by
  refine ⟨passed.rtakeWhile (· ≠ '\n') ++ rest.takeWhile (· ≠ '\n'), ?_, ?_⟩
  · rw [behind, Nat.add_sub_cancel_left]
    exact getElem?_splitOn_newline passed rest
  · simp only [behind, List.length_append]
    omega

end DocumentHost.Position

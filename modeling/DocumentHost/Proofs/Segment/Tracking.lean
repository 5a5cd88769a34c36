import DocumentHost.Proofs.Segment.Division
import DocumentHost.Proofs.Text.Position

/-!
# Keeping track of positions

A document can be cut by offsets into the whole of its text, with a tracker that is asked for
the position at each place where a piece begins.  The tracker only ever goes forward, so that no
character is counted twice; what it is asked for never lies behind it, and the pieces are those
that the text is cut into.
-/

namespace DocumentHost

/-- An offset that has been reached in a text, and the position there. -/
structure Tracker where
  offset : Nat
  position : Position
deriving DecidableEq, Repr

namespace Tracker

/-- In front of the text. -/
def start : Tracker :=
  ⟨0, .start⟩

/-- Move on to an offset, if it does not lie behind. -/
def moveTo? (text : List Char) (tracker : Tracker) (offset : Nat) : Option Tracker :=
  if tracker.offset ≤ offset then
    some ⟨offset, tracker.position.after ((text.take offset).drop tracker.offset)⟩
  else none

/-- A tracker has not gone beyond an offset, and is right about the position it has reached. -/
structure UpTo (text : List Char) (tracker : Tracker) (offset : Nat) : Prop where
  noFurther : tracker.offset ≤ offset
  exact : tracker.position = .behind (text.take tracker.offset)

variable {text first rest : List Char} {tracker : Tracker}

theorem upTo_start (text : List Char) (offset : Nat) : start.UpTo text offset :=
  ⟨Nat.zero_le _, rfl⟩

theorem UpTo.behind (joined : text = first ++ rest) {offset : Nat}
    (noFurther : first.length ≤ offset) :
    UpTo text ⟨first.length, .behind first⟩ offset :=
  ⟨noFurther, by rw [joined, List.take_left]⟩

/-- What is asked for is where the text before it ends. -/
theorem UpTo.moveTo? (joined : text = first ++ rest) (upTo : tracker.UpTo text first.length) :
    tracker.moveTo? text first.length = some ⟨first.length, .behind first⟩ := by
  have reached : text.take tracker.offset = first.take tracker.offset := by
    rw [joined, List.take_append_of_le_length upTo.noFurther]
  rw [Tracker.moveTo?, if_pos upTo.noFurther, upTo.exact, reached, joined, List.take_left,
    ← Position.behind_append, List.take_append_drop]

end Tracker

namespace Piece

/-- The literal between two offsets, unless it is empty.  The tracker is not asked for the
position of an empty one. -/
def trackLiteral? (text : List Char) (tracker : Tracker) (first last : Nat) :
    Option (List Piece × Tracker) :=
  if last ≤ first then some ([], tracker)
  else (tracker.moveTo? text first).map fun moved =>
    ([.literal ((text.take last).drop first) moved.position], moved)

/-- Cut a text from an offset on, with a tracker for the positions. -/
def track? (fence : Fence) (text : List Char) (index : Nat) (tracker : Tracker) :
    Option (List Piece) :=
  match _opened : Text.cutAt? fence.opening (text.drop index) with
  | none => (trackLiteral? text tracker index text.length).map Prod.fst
  | some (before, inside) => do
      let start := index + before.length
      let (literals, passed) ← trackLiteral? text tracker index start
      let here ← passed.moveTo? text start
      match Text.cutAt? fence.closing inside with
      | none => return literals ++ [.unclosed here.position]
      | some (body, _) =>
          let next := start + fence.opening.length + body.length + fence.closing.length
          let others ← track? fence text next here
          return literals ++ .scriptlet body here.position :: others
termination_by text.length - index
decreasing_by
  have openingLength := length_of_cutAt? _opened
  have openingTakesRoom := List.length_pos_iff.2 fence.opening_ne_nil
  rw [List.length_drop] at openingLength
  omega

variable {text passed ahead : List Char} {tracker : Tracker}

theorem trackLiteral?_eq_some (joined : text = passed ++ ahead)
    (upTo : tracker.UpTo text passed.length) {literal rest : List Char}
    (begins : ahead = literal ++ rest) :
    ∃ moved : Tracker, moved.UpTo text (passed.length + literal.length) ∧
      trackLiteral? text tracker passed.length (passed.length + literal.length) =
        some (literals literal (.behind passed), moved) := by
  rw [trackLiteral?, literals]
  cases literal with
  | nil => exact ⟨tracker, upTo, by simp⟩
  | cons character literal =>
      have between : (text.take (passed.length + (character :: literal).length)).drop
          passed.length = character :: literal := by
        rw [joined, begins, ← List.append_assoc, ← List.length_append, List.take_left,
          List.drop_left]
      refine ⟨⟨passed.length, .behind passed⟩,
        Tracker.UpTo.behind joined (Nat.le_add_right _ _), ?_⟩
      rw [if_neg (by simp), upTo.moveTo? joined, between]
      rfl

/-- Behind an opening the tracker has come to it. -/
theorem track?_of_opened (fence : Fence) {before inside : List Char}
    (opened : Text.FirstAt fence.opening ahead before inside) (joined : text = passed ++ ahead)
    (upTo : tracker.UpTo text passed.length) :
    track? fence text passed.length tracker =
      match Text.cutAt? fence.closing inside with
      | none => some (literals before (.behind passed) ++ [.unclosed (.behind (passed ++ before))])
      | some (body, _) =>
          (track? fence text
            (passed ++ before ++ fence.opening ++ body ++ fence.closing).length
            ⟨(passed ++ before).length, .behind (passed ++ before)⟩).map fun others =>
              literals before (.behind passed) ++
                .scriptlet body (.behind (passed ++ before)) :: others := by
  obtain ⟨moved, movedUpTo, literal⟩ := trackLiteral?_eq_some joined upTo
    (opened.joined.trans (List.append_assoc _ _ _))
  have atOpening : text = passed ++ before ++ (fence.opening ++ inside) := by
    rw [joined, opened.joined]
    simp
  rw [← List.length_append] at movedUpTo literal
  have here := movedUpTo.moveTo? atOpening
  rw [track?]
  split
  · rename_i missing
    rw [joined, List.drop_left] at missing
    exact absurd opened.isInfix (Text.cutAt?_eq_none_iff.1 missing)
  · rename_i found
    rw [joined, List.drop_left] at found
    obtain ⟨rfl, rfl⟩ := (Text.firstAt_of_cutAt? found).unique opened
    simp only [← List.length_append, literal, Option.bind_eq_bind, Option.bind_some, here]
    split
    · rfl
    · rw [Option.map_eq_bind]
      rfl

/-- By induction on the division of the text ahead, from piece to piece: the tracker has not
gone beyond what was passed. -/
theorem track?_eq_pieces (fence : Fence) {division : Division}
    (divides : Divides fence.opening fence.closing ahead division)
    (joined : text = passed ++ ahead) (upTo : tracker.UpTo text passed.length) :
    track? fence text passed.length tracker =
      some (Division.pieces fence.opening fence.closing division.last division.unclosed
        (.behind passed) division.stretches) := by
  induction divides generalizing passed tracker with
  | @whole ahead noOpening =>
      obtain ⟨moved, -, literal⟩ := trackLiteral?_eq_some joined upTo (List.append_nil ahead).symm
      rw [← List.length_append, ← joined] at literal
      rw [track?]
      split
      · simp [literal, Division.pieces]
      · rename_i found
        rw [joined, List.drop_left] at found
        exact absurd (Text.firstAt_of_cutAt? found).isInfix noOpening
  | unclosed opened noClosing =>
      rw [track?_of_opened fence opened joined upTo, Text.cutAt?_eq_none_iff.2 noClosing]
      simp [Division.pieces, Position.behind_append]
  | @scriptlet ahead before inside body rest division opened closed further ih =>
      rw [track?_of_opened fence opened joined upTo, Text.cutAt?_eq_some_iff.2 closed]
      have behindClosing :
          text = passed ++ before ++ fence.opening ++ body ++ fence.closing ++ rest := by
        rw [joined, opened.joined, closed.joined]
        simp
      have atOpening : text =
          passed ++ before ++ (fence.opening ++ body ++ fence.closing ++ rest) := by
        rw [behindClosing]
        simp
      dsimp only
      rw [ih behindClosing (.behind atOpening (by simp only [List.length_append]; omega))]
      simp [Division.pieces, Stretch.joined, Position.behind_append, Position.after_append]

/-- The tracker is never asked for what lies behind it, and the pieces are those that the text
is cut into. -/
theorem track?_eq_cut (fence : Fence) (text : List Char) :
    track? fence text 0 .start = some (cut fence text .start) := by
  obtain ⟨division, divides⟩ := exists_divides fence.opening_ne_nil fence.closing text
  rw [cut_eq_pieces fence divides]
  have ahead : text = [] ++ text := rfl
  exact track?_eq_pieces fence divides ahead (Tracker.upTo_start text 0)

end Piece

end DocumentHost

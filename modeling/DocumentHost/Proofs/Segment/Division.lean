import DocumentHost.Proofs.Text.Occurrence
import DocumentHost.Segment.Piece

/-!
# The division of a document

A pair of delimiters divides a text into literal stretches and scriptlet bodies: every
opening is the first one behind the scriptlet before it, and every closing the first one
behind its opening.  A text has one division, from which it can be put together again,
and the pieces of the text are those of the division.
-/

namespace DocumentHost

/-- The body of a scriptlet, and the literal text in front of it. -/
structure Stretch where
  literal : List Char
  body : List Char
deriving DecidableEq, Repr

/-- The parts of a text between delimiters. -/
structure Division where
  stretches : List Stretch
  /-- The literal text behind the last scriptlet. -/
  last : List Char
  /-- What stands behind an opening that nothing closes. -/
  unclosed : Option (List Char)
deriving DecidableEq, Repr

/-- A text is divided at first occurrences. -/
inductive Divides (opening closing : List Char) : (text : List Char) → Division → Prop where
  | whole {text : List Char} (noOpening : ¬opening <:+: text) :
      Divides opening closing text ⟨[], text, none⟩
  | unclosed {text before inside : List Char}
      (opened : Text.FirstAt opening text before inside) (noClosing : ¬closing <:+: inside) :
      Divides opening closing text ⟨[], before, some inside⟩
  | scriptlet {text before inside body rest : List Char} {division : Division}
      (opened : Text.FirstAt opening text before inside)
      (closed : Text.FirstAt closing inside body rest)
      (further : Divides opening closing rest division) :
      Divides opening closing text
        { division with stretches := ⟨before, body⟩ :: division.stretches }

/-- The text of a scriptlet with what stands in front of it. -/
def Stretch.joined (opening closing : List Char) (stretch : Stretch) : List Char :=
  stretch.literal ++ opening ++ stretch.body ++ closing

namespace Division

/-- The text up to the last scriptlet. -/
def closedPart (opening closing : List Char) (division : Division) : List Char :=
  division.stretches.flatMap (Stretch.joined opening closing)

/-- The text of a division. -/
def joined (opening closing : List Char) (division : Division) : List Char :=
  division.closedPart opening closing ++ division.last ++
    division.unclosed.elim [] (opening ++ ·)

/-- The literal texts, in order. -/
def literals (division : Division) : List (List Char) :=
  division.stretches.map Stretch.literal ++ [division.last]

/-- The pieces behind a place. -/
def pieces (opening closing : List Char) (last : List Char) (unclosed : Option (List Char)) :
    Position → List Stretch → List Piece
  | position, [] =>
      Piece.literals last position ++
        unclosed.elim [] fun _ => [.unclosed (position.after last)]
  | position, stretch :: rest =>
      Piece.literals stretch.literal position ++
        .scriptlet stretch.body (position.after stretch.literal) ::
          pieces opening closing last unclosed
            (position.after (stretch.joined opening closing)) rest

end Division

namespace Divides

variable {opening closing text : List Char} {division : Division}

theorem joined_eq (divides : Divides opening closing text division) :
    division.joined opening closing = text := by
  induction divides with
  | whole => simp [Division.joined, Division.closedPart]
  | unclosed opened =>
      rw [opened.joined]
      simp [Division.joined, Division.closedPart]
  | scriptlet opened closed _ ih =>
      rw [opened.joined, closed.joined, ← ih]
      simp [Division.joined, Division.closedPart, Stretch.joined, List.append_assoc]

/-- What is left open is closed nowhere. -/
theorem noClosing {inside : List Char} (divides : Divides opening closing text division)
    (unclosed : division.unclosed = some inside) : ¬closing <:+: inside := by
  induction divides with
  | whole => cases unclosed
  | unclosed _ noClosing =>
      cases unclosed
      exact noClosing
  | scriptlet _ _ _ ih => exact ih unclosed

/-- Divisions of one text agree. -/
theorem unique {other : Division} (divides : Divides opening closing text division)
    (otherwise : Divides opening closing text other) : division = other := by
  induction divides generalizing other with
  | whole noOpening =>
      cases otherwise with
      | whole => rfl
      | unclosed opened | scriptlet opened => exact absurd opened.isInfix noOpening
  | unclosed opened noClosing =>
      cases otherwise with
      | whole noOpening => exact absurd opened.isInfix noOpening
      | unclosed openedToo _ =>
          obtain ⟨rfl, rfl⟩ := opened.unique openedToo
          rfl
      | scriptlet openedToo closed _ =>
          obtain ⟨rfl, rfl⟩ := opened.unique openedToo
          exact absurd closed.isInfix noClosing
  | scriptlet opened closed _ ih =>
      cases otherwise with
      | whole noOpening => exact absurd opened.isInfix noOpening
      | unclosed openedToo noClosing =>
          obtain ⟨rfl, rfl⟩ := opened.unique openedToo
          exact absurd closed.isInfix noClosing
      | scriptlet openedToo closedToo further =>
          obtain ⟨rfl, rfl⟩ := opened.unique openedToo
          obtain ⟨rfl, rfl⟩ := closed.unique closedToo
          rw [ih further]

end Divides

/-- By induction on the length of the text, which every scriptlet makes shorter. -/
theorem exists_divides {opening : List Char} (nonempty : opening ≠ []) (closing : List Char)
    (text : List Char) : ∃ division, Divides opening closing text division := by
  induction length : text.length using Nat.strong_induction_on generalizing text with
  | _ size ih =>
      by_cases opens : opening <:+: text
      · obtain ⟨before, inside, opened⟩ := Text.exists_firstAt opens
        by_cases closes : closing <:+: inside
        · obtain ⟨body, rest, closed⟩ := Text.exists_firstAt closes
          have shorter : rest.length < size := by
            rw [← length]
            have behindOpening := opened.length_lt nonempty
            have behindClosing := closed.length_le
            omega
          obtain ⟨division, further⟩ := ih rest.length shorter rest rfl
          exact ⟨_, .scriptlet opened closed further⟩
        · exact ⟨_, .unclosed opened closes⟩
      · exact ⟨_, .whole opens⟩

/-- A text is divided in one way. -/
theorem existsUnique_divides {opening : List Char} (nonempty : opening ≠ [])
    (closing text : List Char) : ∃! division, Divides opening closing text division := by
  obtain ⟨division, divides⟩ := exists_divides nonempty closing text
  exact ⟨division, divides, fun other otherwise => otherwise.unique divides⟩

/-- A text is cut into the pieces of its division. -/
theorem Piece.cut_eq_pieces (fence : Fence) {text : List Char} {division : Division}
    (divides : Divides fence.opening fence.closing text division) (position : Position) :
    Piece.cut fence text position =
      Division.pieces fence.opening fence.closing division.last division.unclosed position
        division.stretches := by
  induction divides generalizing position with
  | whole noOpening =>
      rw [Piece.cut]
      split
      · simp [Division.pieces]
      · rename_i found
        exact absurd (Text.firstAt_of_cutAt? found).isInfix noOpening
  | unclosed opened noClosing =>
      rw [Piece.cut]
      split
      · rename_i missing
        exact absurd opened.isInfix (Text.cutAt?_eq_none_iff.1 missing)
      · rename_i found
        obtain ⟨rfl, rfl⟩ := (Text.firstAt_of_cutAt? found).unique opened
        dsimp only
        split
        · simp [Division.pieces]
        · rename_i closed
          exact absurd (Text.firstAt_of_cutAt? closed).isInfix noClosing
  | scriptlet opened closed _ ih =>
      rw [Piece.cut]
      split
      · rename_i missing
        exact absurd opened.isInfix (Text.cutAt?_eq_none_iff.1 missing)
      · rename_i found
        obtain ⟨rfl, rfl⟩ := (Text.firstAt_of_cutAt? found).unique opened
        dsimp only
        split
        · rename_i missing
          exact absurd closed.isInfix (Text.cutAt?_eq_none_iff.1 missing)
        · rename_i foundClosing
          obtain ⟨rfl, rfl⟩ := (Text.firstAt_of_cutAt? foundClosing).unique closed
          simp [Division.pieces, Stretch.joined, Position.after_append, ih]

end DocumentHost

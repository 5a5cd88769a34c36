import DocumentHost.Host.Compile
import DocumentHost.Proofs.Host.Evaluation
import DocumentHost.Proofs.Segment.Division
import DocumentHost.Proofs.Segment.Foremost

/-!
# Splitting a document

A document is split exactly along the delimiters that open first in it.  Its scriptlets
are taken in order, each in the state that the ones before it have left; once they are
all accepted, the segments are the literal stretches that are not empty, with the
programs of the scriptlets between them.
-/

namespace DocumentHost

open HostM

/-! ## One scriptlet -/

/-- The body of a comment. -/
def Markers.IsComment (markers : Markers) (body : List Char) : Prop :=
  markers.comment ≠ "" ∧ markers.comment.toList <+: body

theorem treatmentOf_of_comment {markers : Markers} {body : List Char}
    (comment : markers.IsComment body) :
    (treatmentOf body markers.treatments).1 = .comment := by
  obtain ⟨behind, rfl⟩ := comment.2
  rw [Markers.treatments, treatmentOf, if_neg comment.1,
    Text.behindFront?_eq_some_iff.2 rfl]

/-- Only the marker of comments stands for a comment. -/
theorem treatmentOf_ne_comment {body : List Char} {treatments : List (String × Treatment)}
    (noComment : ∀ entry ∈ treatments, entry.2 ≠ .comment) :
    (treatmentOf body treatments).1 ≠ .comment := by
  induction treatments with
  | nil => simp [treatmentOf]
  | cons entry rest ih =>
      have further := ih fun other member => noComment other (by simp [member])
      rw [treatmentOf]
      split
      · exact further
      split
      · exact noComment entry (by simp)
      · exact further

theorem treatmentOf_eq_comment_iff {markers : Markers} {body : List Char} :
    (treatmentOf body markers.treatments).1 = .comment ↔ markers.IsComment body := by
  refine ⟨fun treated => ?_, treatmentOf_of_comment⟩
  by_contra noComment
  have others : (treatmentOf body (markers.treatments.drop 1)).1 ≠ .comment :=
    treatmentOf_ne_comment (by simp [Markers.treatments])
  apply others
  rw [← treated, Markers.treatments, treatmentOf]
  split
  · rfl
  split
  · rename_i nonempty _ behind front
    rw [Text.behindFront?_eq_some_iff] at front
    exact absurd ⟨nonempty, behind, front.symm⟩ noComment
  · rfl

/-! ## All scriptlets -/

/-- What a scriptlet answers: its segment, unless it is a comment, and the tag in effect
behind it. -/
abbrev Answer := Option RawSegment × Option String

/-- The number of segments of a literal stretch. -/
def literalCount (text : List Char) : Nat :=
  if text.isEmpty then 0 else 1

/-- The answers of scriptlets one after the other, up to the first that is not
accepted.  Tag, number of segments and position are those in front of the literal text
before the next scriptlet. -/
def acceptAll (setting : Setting) (document : Document) (opening closing : List Char) :
    Option String → Nat → Position → List Stretch → HostM ParsingError (List Answer)
  | _, _, _, [] => pure []
  | tag, number, position, stretch :: rest => do
      let number := number + literalCount stretch.literal
      let answer ← scriptletSegment setting document tag number stretch.body
        (position.after stretch.literal)
      let answers ← acceptAll setting document opening closing answer.2
        (number + answer.1.toList.length) (position.after (stretch.joined opening closing)) rest
      return answer :: answers

/-- The segment of a literal stretch, unless it is empty. -/
def literalSegments (text : List Char) (tag : Option String) (position : Position) :
    List RawSegment :=
  if text.isEmpty then [] else [.literal (String.ofList text) tag position]

/-- The segments of a division in document order, given the answers of its
scriptlets. -/
def arrange (opening closing last : List Char) :
    Option String → Position → List Stretch → List Answer → List RawSegment
  | tag, position, stretch :: stretches, (segment, next) :: answers =>
      literalSegments stretch.literal tag position ++ segment.toList ++
        arrange opening closing last next (position.after (stretch.joined opening closing))
          stretches answers
  | tag, position, _, _ => literalSegments last tag position

@[simp]
theorem arrange_nil (opening closing last : List Char) (tag : Option String)
    (position : Position) (answers : List Answer) :
    arrange opening closing last tag position [] answers =
      literalSegments last tag position := by
  simp [arrange]

section

variable {setting : Setting} {document : Document} {opening closing last : List Char}

/-- A literal stretch in front adds its segment to what follows. -/
theorem eval_segmentsOfPieces_literals (expected : String) (text : List Char)
    (tag : Option String) (number : Nat) (position : Position) (rest : List Piece)
    (world : World) :
    (segmentsOfPieces setting document expected tag number
        (Piece.literals text position ++ rest)).eval world =
      match (segmentsOfPieces setting document expected tag (number + literalCount text)
        rest).eval world with
      | (.error error, behind) => (.error error, behind)
      | (.ok others, behind) => (.ok (literalSegments text tag position ++ others), behind) := by
  unfold Piece.literals literalCount literalSegments
  cases text.isEmpty with
  | true =>
      simp only [if_true, List.nil_append, Nat.add_zero]
      rcases (segmentsOfPieces setting document expected tag number rest).eval world with
        ⟨_ | _, _⟩ <;> rfl
  | false =>
      simp only [Bool.false_eq_true, if_false, List.cons_append, List.nil_append]
      rw [segmentsOfPieces, eval_bind]
      rcases (segmentsOfPieces setting document expected tag (number + 1) rest).eval world with
        ⟨_ | _, _⟩ <;> rfl

/-- The pieces of a division give the answers of its scriptlets, arranged among the
literal stretches, or the first refusal.  An opening that nothing closes is refused
behind all scriptlets. -/
theorem eval_segmentsOfPieces (unclosed : Option (List Char)) (expected : String)
    (tag : Option String) (number : Nat) (position : Position) (stretches : List Stretch)
    (world : World) :
    (segmentsOfPieces setting document expected tag number
        (Division.pieces opening closing last unclosed position stretches)).eval world =
      match (acceptAll setting document opening closing tag number position stretches).eval
        world with
      | (.error error, behind) => (.error error, behind)
      | (.ok answers, behind) =>
          if unclosed.isSome then
            (.error (.malformed
              (document.place (position.after
                (stretches.flatMap (Stretch.joined opening closing) ++ last)))
              ("unterminated scriptlet, expected '" ++ expected ++ "'")), behind)
          else (.ok (arrange opening closing last tag position stretches answers), behind) := by
  induction stretches generalizing tag number position world with
  | nil =>
      rw [Division.pieces, eval_segmentsOfPieces_literals]
      cases unclosed with
      | none => simp [segmentsOfPieces, acceptAll, arrange]
      | some inside => simp [segmentsOfPieces, acceptAll]
  | cons stretch rest ih =>
      rw [Division.pieces, eval_segmentsOfPieces_literals, segmentsOfPieces, acceptAll, eval_bind,
        eval_bind]
      rcases (scriptletSegment setting document tag (number + literalCount stretch.literal)
        stretch.body (position.after stretch.literal)).eval world with
        ⟨error | ⟨segment, next⟩, between⟩
      · rfl
      · dsimp only
        cases segment with
        | none =>
            dsimp only [Option.toList_none, List.length_nil]
            rw [ih, eval_bind, Nat.add_zero]
            rcases (acceptAll setting document opening closing next
              (number + literalCount stretch.literal)
              (position.after (stretch.joined opening closing)) rest).eval between with
              ⟨_ | answers, behind⟩
            · rfl
            · cases unclosed with
              | none => simp [arrange]
              | some inside => simp [Position.after_append]
        | some segment =>
            dsimp only [Option.toList_some, List.length_singleton]
            rw [eval_bind, ih, eval_bind]
            rcases (acceptAll setting document opening closing next
              (number + literalCount stretch.literal + 1)
              (position.after (stretch.joined opening closing)) rest).eval between with
              ⟨_ | answers, behind⟩
            · rfl
            · cases unclosed with
              | none => simp [arrange]
              | some inside => simp [Position.after_append]

end

/-- What a split along a division comes to, once its scriptlets are done: the first refusal, or an
opening that nothing closes, or the answers among the literal stretches. -/
def outcomeAlong (document : Document) (opening closing : List Char) (tag : Option String)
    (division : Division) :
    Except ParsingError (List Answer) → Except ParsingError (List RawSegment)
  | .error error => .error error
  | .ok answers =>
      if division.unclosed.isSome then
        .error (.malformed
          (document.place (Position.start.after
            (division.closedPart opening closing ++ division.last)))
          ("unterminated scriptlet, expected '" ++ String.ofList closing ++ "'"))
      else .ok (arrange opening closing division.last tag .start division.stretches answers)

theorem eval_splitDocument_of_divides {setting : Setting} {document : Document} {fence : Fence}
    {division : Division}
    (found : Fence.ofDocument? setting.options.delimiters document.text.toList = some fence)
    (divides : Divides fence.opening fence.closing document.text.toList division)
    (world : World) :
    (splitDocument setting document).eval world =
      let tag := world.initialTag setting document
      let done := (acceptAll setting document fence.opening fence.closing tag 0 .start
        division.stretches).eval world
      (outcomeAlong document fence.opening fence.closing tag division done.1, done.2) := by
  rw [splitDocument, eval_bind_of_ok (eval_get world)]
  dsimp only
  rw [found]
  dsimp only
  rw [Piece.cut_eq_pieces fence divides, eval_segmentsOfPieces]
  rcases (acceptAll setting document fence.opening fence.closing
    (world.initialTag setting document) 0 .start division.stretches).eval world with
    ⟨error | answers, behind⟩
  · rfl
  · cases closed : division.unclosed <;> simp [outcomeAlong, closed, Division.closedPart]

end DocumentHost

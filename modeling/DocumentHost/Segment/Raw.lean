import DocumentHost.Text.Position

/-!
# Raw segments

A document that has been taken apart is a list of raw segments: literal text
and programs in some language, in document order.
-/

namespace DocumentHost

/-- What a segment is. -/
inductive SegmentKind where
  | literal
  | program
deriving DecidableEq, Repr, Inhabited

/-- A segment before it is merged with others and compiled. -/
structure RawSegment where
  kind : SegmentKind
  text : String
  /-- The language in effect where the segment starts. -/
  tag : Option String
  position : Position
deriving DecidableEq, Repr, Inhabited

namespace RawSegment

/-- A stretch of literal text. -/
def literal (text : String) (tag : Option String) (position : Position) : RawSegment :=
  ⟨.literal, text, tag, position⟩

/-- A program. -/
def program (text : String) (tag : Option String) (position : Position) : RawSegment :=
  ⟨.program, text, tag, position⟩

/-- Whether a segment is literal text. -/
def isLiteral (segment : RawSegment) : Bool :=
  segment.kind = .literal

end RawSegment

end DocumentHost

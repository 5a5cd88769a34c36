import DocumentHost.Segment.Raw

/-!
# Merging segments

Segments are merged in three passes.  Neighbours that are both literal, or both
programs in one language, become one segment.  Then a literal behind a program
of its language becomes code that prints it.  Then neighbours are merged once
more.  A merged segment has the place of its last piece.
-/

namespace DocumentHost

namespace RawSegment

/-- Whether a segment and the next one become one. -/
def joins (segment next : RawSegment) : Bool :=
  segment.kind = next.kind && (segment.isLiteral || segment.tag = next.tag)

/-- A segment and the next one as one: the text of both, the rest from the later. -/
def join (segment next : RawSegment) : RawSegment :=
  { next with text := segment.text ++ next.text }

/-- Merge a segment into the segments that follow it. -/
def joinRunsFrom (segment : RawSegment) : List RawSegment → List RawSegment
  | [] => [segment]
  | next :: rest =>
      if segment.joins next then (segment.join next).joinRunsFrom rest
      else segment :: next.joinRunsFrom rest

/-- Merge neighbours that are both literal or programs in one language. -/
def joinRuns : List RawSegment → List RawSegment
  | [] => []
  | segment :: rest => segment.joinRunsFrom rest

/-- A literal behind a program of its language, as code that prints it. -/
def absorbAfter (codeFor : String → String → Option String) (previous segment : RawSegment) :
    RawSegment :=
  match segment.tag with
  | some tag =>
      if segment.isLiteral && !previous.isLiteral && previous.tag = some tag then
        match codeFor tag segment.text with
        | some code => { segment with kind := .program, text := code }
        | none => segment
      else segment
  | none => segment

/-- Turn literals into code, given the segment before them. -/
def absorbFrom (codeFor : String → String → Option String) (previous : RawSegment) :
    List RawSegment → List RawSegment
  | [] => []
  | segment :: rest =>
      let absorbed := absorbAfter codeFor previous segment
      absorbed :: absorbFrom codeFor absorbed rest

/-- Turn literals that follow a program of their language into code that prints
them.  `codeFor` gives the code for a tag and a text. -/
def absorbLiterals (codeFor : String → String → Option String) :
    List RawSegment → List RawSegment
  | [] => []
  | segment :: rest => segment :: absorbFrom codeFor segment rest

/-- All three passes. -/
def normalize (codeFor : String → String → Option String) (segments : List RawSegment) :
    List RawSegment :=
  joinRuns (absorbLiterals codeFor (joinRuns segments))

end RawSegment

end DocumentHost

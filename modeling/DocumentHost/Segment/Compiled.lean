import DocumentHost.Arena
import DocumentHost.Language.Adapter
import DocumentHost.Segment.Raw

/-!
# Compiled segments

What is executed: literal texts, and programs together with the adapter that
compiled them.  The number of a segment is its place in the list.
-/

namespace DocumentHost

/-- A compiled segment. -/
inductive Segment where
  | literal (text : String) (position : Position)
  | program (text tag : String) (position : Position) (adapter : AdapterId) (program : Program)

instance : Inhabited Segment := ⟨.literal "" default⟩

namespace Segment

/-- Where the segment starts in its document. -/
def position : Segment → Position
  | .literal _ position => position
  | .program _ _ position _ _ => position

/-- The literal text or the program text. -/
def text : Segment → String
  | .literal text _ => text
  | .program text _ _ _ _ => text

/-- Whether the segment is literal text. -/
def isLiteral : Segment → Bool
  | .literal _ _ => true
  | .program _ _ _ _ _ => false

/-- The text of a document that is one literal and needs no execution. -/
def pureText? : List Segment → Option String
  | [.literal text _] => some text
  | _ => none

end Segment

end DocumentHost

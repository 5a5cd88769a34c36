import DocumentHost.Options.Basic
import DocumentHost.Text.Blank
import DocumentHost.Text.Position
import DocumentHost.Text.Search

/-!
# Pieces of a document

A document with scriptlets is cut along the delimiters that open first.  What
lies between two scriptlets is literal text, what lies between the delimiters
is the body of a scriptlet, and an opening without a closing ends the document.
A body may begin with a marker and a language tag.
-/

namespace DocumentHost

/-- A stretch of a document. -/
inductive Piece where
  | literal (text : List Char) (position : Position)
  | scriptlet (body : List Char) (position : Position)
  /-- An opening delimiter that nothing closes. -/
  | unclosed (position : Position)
deriving DecidableEq, Repr

/-- A pair of delimiters as characters.  A scriptlet takes room in its document, since
its opening does. -/
structure Fence where
  opening : List Char
  closing : List Char
  opening_ne_nil : opening ≠ []
deriving DecidableEq

namespace Fence

/-- The fence of a pair, unless a delimiter is empty. -/
def ofDelimiters? (pair : Delimiters) : Option Fence :=
  if nonempty : pair.opening.toList ≠ [] ∧ pair.closing.toList ≠ [] then
    some ⟨pair.opening.toList, pair.closing.toList, nonempty.1⟩
  else none

/-- The number of characters before the first opening. -/
def offset? (fence : Fence) (text : List Char) : Option Nat :=
  (Text.cutAt? fence.opening text).map fun parts => parts.1.length

/-- The fence that opens first, of two that open at one place the earlier. -/
def foremost? (text : List Char) : List Fence → Option (Nat × Fence)
  | [] => none
  | fence :: rest =>
      match fence.offset? text, foremost? text rest with
      | some here, some (there, other) =>
          if here ≤ there then some (here, fence) else some (there, other)
      | some here, none => some (here, fence)
      | none, found => found

/-- The fence of a document. -/
def ofDocument? (delimiters : List Delimiters) (text : List Char) : Option Fence :=
  (foremost? text (delimiters.filterMap ofDelimiters?)).map Prod.snd

end Fence

namespace Piece

/-- A literal, unless it is empty. -/
def literals (text : List Char) (position : Position) : List Piece :=
  if text.isEmpty then [] else [.literal text position]

theorem length_of_cutAt? {pattern text before behind : List Char}
    (found : Text.cutAt? pattern text = some (before, behind)) :
    behind.length + pattern.length + before.length = text.length := by
  rw [Text.eq_of_cutAt?_eq_some found]
  simp only [List.length_append]
  omega

/-- Cut a text that begins at a position. -/
def cut (fence : Fence) (text : List Char) (position : Position) : List Piece :=
  match _opened : Text.cutAt? fence.opening text with
  | none => literals text position
  | some (before, inside) =>
      let start := position.after before
      let behindOpening := start.after fence.opening
      literals before position ++
        match _closed : Text.cutAt? fence.closing inside with
        | none => [.unclosed start]
        | some (body, rest) =>
            .scriptlet body start ::
              cut fence rest ((behindOpening.after body).after fence.closing)
termination_by text.length
decreasing_by
  have openingLength := length_of_cutAt? _opened
  have closingLength := length_of_cutAt? _closed
  have openingTakesRoom := List.length_pos_iff.2 fence.opening_ne_nil
  omega

end Piece

/-- How a scriptlet is treated. -/
inductive Treatment where
  | comment
  | expression
  | documentInclude
  | inFlow
  | code
deriving DecidableEq, Repr

/-- The markers and the treatments they stand for, in the order in which they are
tried. -/
def Markers.treatments (markers : Markers) : List (String × Treatment) :=
  [(markers.comment, .comment), (markers.expression, .expression),
    (markers.documentInclude, .documentInclude), (markers.inFlow, .inFlow)]

/-- The treatment of a body by the first marker that it begins with, and what follows
the marker.  An empty marker is no marker. -/
def treatmentOf (body : List Char) : List (String × Treatment) → Treatment × List Char
  | [] => (.code, body)
  | (marker, treatment) :: rest =>
      if marker = "" then treatmentOf body rest
      else
        match Text.behindFront? marker.toList body with
        | some behind => (treatment, behind)
        | none => treatmentOf body rest

/-- The language tag in front of code, and the code.  A tag ends at the first blank,
which belongs to neither; code that begins with a blank, or contains none, has no
tag. -/
def leadingTag (text : List Char) : Option (List Char) × List Char :=
  match text with
  | [] => (none, text)
  | first :: _ =>
      if Text.isBlank first then (none, text)
      else
        match text.dropWhile fun character => !Text.isBlank character with
        | [] => (none, text)
        | _ :: code => (some (text.takeWhile fun character => !Text.isBlank character), code)

end DocumentHost

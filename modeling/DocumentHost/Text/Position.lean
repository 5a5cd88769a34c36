/-!
# Positions in a text

Lines and columns count from one, and columns count characters.  A position is
moved forward over the characters that were passed, so the position of a place
is a function of the text before it.
-/

namespace DocumentHost

/-- The line and column of a place in a text, both counted from one. -/
structure Position where
  line : Nat
  column : Nat
deriving DecidableEq, Repr, Inhabited

namespace Position

/-- The place before the first character. -/
def start : Position := ⟨1, 1⟩

/-- The place behind one more character. -/
def advance (position : Position) (character : Char) : Position :=
  if character = '\n' then ⟨position.line + 1, 1⟩
  else ⟨position.line, position.column + 1⟩

/-- The place behind a run of characters. -/
def after (position : Position) (passed : List Char) : Position :=
  passed.foldl advance position

/-- The written form: line, colon, column. -/
def render (position : Position) : String :=
  toString position.line ++ ":" ++ toString position.column

@[simp]
theorem after_nil (position : Position) : position.after [] = position :=
  rfl

@[simp]
theorem after_cons (position : Position) (character : Char) (passed : List Char) :
    position.after (character :: passed) = (position.advance character).after passed :=
  rfl

theorem after_append (position : Position) (first second : List Char) :
    position.after (first ++ second) = (position.after first).after second := by
  simp [after, List.foldl_append]

/-- Places inside an enclosed text, seen from the text that encloses it: the
first line continues the line of the enclosing place, later lines are whole. -/
def within (outer inner : Position) : Position :=
  ⟨outer.line + inner.line - 1,
    if inner.line = 1 then outer.column + inner.column - 1 else inner.column⟩

end Position

end DocumentHost

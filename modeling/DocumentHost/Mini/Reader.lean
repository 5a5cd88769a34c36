import DocumentHost.Mini.Mistake
import DocumentHost.Mini.Program
import DocumentHost.Text.Blank

/-!
# Reading Mini programs

A cursor walks over the program text and knows its place.  Words, numbers and
texts are taken as long as they go.  Blanks may stand between any two words;
semicolons and comments only where a statement may start.  Expressions and
blocks nest, and the reading of a nested part is bounded by the length of the
text that is left.
-/

namespace DocumentHost.Mini

/-- What is left of a program text, and where it begins. -/
structure Cursor where
  rest : List Char
  position : Position
deriving DecidableEq, Repr, Inhabited

/-- Reading gives a part of the program, or stops at the first mistake. -/
abbrev Reading := Except SyntaxError

namespace Cursor

/-- The cursor before a text. -/
def ofText (text : String) : Cursor :=
  ⟨text.toList, .start⟩

/-- The cursor behind the next character. -/
def step (cursor : Cursor) : Cursor :=
  match cursor.rest with
  | [] => cursor
  | character :: rest => ⟨rest, cursor.position.advance character⟩

/-- The characters at the front that pass a test. -/
def front (cursor : Cursor) (test : Char → Bool) : List Char :=
  cursor.rest.takeWhile test

/-- The cursor behind the characters at the front that pass a test. -/
def skip (cursor : Cursor) (test : Char → Bool) : Cursor :=
  ⟨cursor.rest.dropWhile test, cursor.position.after (cursor.rest.takeWhile test)⟩

/-- The cursor behind the blanks at the front. -/
def skipBlanks (cursor : Cursor) : Cursor :=
  cursor.skip Text.isProgramBlank

/-- A mistake at the cursor. -/
def fail {α : Type} (cursor : Cursor) (mistake : Mistake) : Reading α :=
  .error ⟨cursor.position, mistake⟩

end Cursor

/-- The cursor behind blanks, semicolons and comments.  The flag says whether the
place is inside a comment, which ends with its line. -/
def skipGaps (inComment : Bool) (position : Position) : List Char → Cursor
  | [] => ⟨[], position⟩
  | character :: rest =>
      if inComment then
        skipGaps (character != '\n') (position.advance character) rest
      else if Text.isProgramBlank character || character = ';' then
        skipGaps false (position.advance character) rest
      else if character = '#' then skipGaps true (position.advance character) rest
      else ⟨character :: rest, position⟩

/-- The cursor before the next statement. -/
def Cursor.skipGaps (cursor : Cursor) : Cursor :=
  Mini.skipGaps false cursor.position cursor.rest

/-- A letter of the Latin alphabet. -/
def isLetter (character : Char) : Bool :=
  ('a' ≤ character && character ≤ 'z') || ('A' ≤ character && character ≤ 'Z')

/-- A decimal digit. -/
def isDigit (character : Char) : Bool :=
  '0' ≤ character && character ≤ '9'

/-- A character that may start a word. -/
def startsWord (character : Char) : Bool :=
  isLetter character || character = '_'

/-- A character inside a word. -/
def continuesWord (character : Char) : Bool :=
  isLetter character || isDigit character || character = '_' || character = '.'

/-- The word at the cursor, if one starts there. -/
def readWord? (cursor : Cursor) : Option (String × Cursor) :=
  match cursor.rest with
  | [] => none
  | character :: _ =>
      if startsWord character then
        some (String.ofList (cursor.front continuesWord), cursor.skip continuesWord)
      else none

/-- A name: a word that is no keyword, behind blanks.  A word that is refused has
been passed. -/
def readName (cursor : Cursor) : Reading (String × Cursor) :=
  match readWord? cursor.skipBlanks with
  | some (word, behind) =>
      if keywords.contains word then behind.fail .expectedName else .ok (word, behind)
  | none => cursor.skipBlanks.fail .expectedName

/-- A given character behind blanks. -/
def expect (character : Char) (cursor : Cursor) : Reading Cursor :=
  let behind := cursor.skipBlanks
  if behind.rest.head? = some character then .ok behind.step
  else .error ⟨behind.position, .expected character⟩

/-- The character that an escape stands for. -/
def unescape? : Char → Option Char
  | '"' => some '"'
  | '\\' => some '\\'
  | 'n' => some '\n'
  | 'r' => some '\r'
  | 't' => some '\t'
  | _ => none

/-- The rest of a text behind its opening quote. -/
def readTextBody (position : Position) : List Char → Reading (List Char × Cursor)
  | [] => .error ⟨position, .openText⟩
  | ['\\'] => .error ⟨position.advance '\\', .incompleteEscape⟩
  | '\\' :: escape :: rest =>
      let behind := (position.advance '\\').advance escape
      match unescape? escape with
      | none => .error ⟨behind, .unknownEscape escape⟩
      | some character =>
          (readTextBody behind rest).map fun (body, cursor) => (character :: body, cursor)
  | character :: rest =>
      if character = '"' then .ok ([], ⟨rest, position.advance character⟩)
      else
        (readTextBody (position.advance character) rest).map fun (body, cursor) =>
          (character :: body, cursor)

/-- The number that decimal digits denote. -/
def digitsValue (digits : List Char) : Nat :=
  digits.foldl (fun value digit => 10 * value + (digit.toNat - '0'.toNat)) 0

/-- An integer with an optional minus sign.  It needs a digit and has to fit 64 bits
with sign. -/
def readInteger (cursor : Cursor) : Reading (Expression × Cursor) :=
  let negative := cursor.rest.head? = some '-'
  let unsigned := if negative then cursor.step else cursor
  let digits := unsigned.front isDigit
  let behind := unsigned.skip isDigit
  let value : Int := if negative then -(digitsValue digits : Int) else digitsValue digits
  if digits.isEmpty || value < -9223372036854775808 || 9223372036854775807 < value then
    behind.fail .invalidInteger
  else .ok (.integer value, behind)

/-- The digits of an argument index, behind the dollar sign. -/
def readIndex (cursor : Cursor) : Reading (Expression × Cursor) :=
  let digits := cursor.front isDigit
  let behind := cursor.skip isDigit
  if digits.isEmpty || 18446744073709551615 < digitsValue digits then behind.fail .expectedIndex
  else .ok (.argument (digitsValue digits), behind)

/-- A word in the place of a term. -/
def readNamed (cursor : Cursor) : Reading (Expression × Cursor) :=
  match readWord? cursor with
  | some (word, behind) =>
      if keywords.contains word then cursor.fail (.unexpectedKeyword word)
      else .ok (.named word, behind)
  | none => cursor.fail .unexpectedCharacter

mutual

/-- A term, behind blanks. -/
def readTerm : Nat → Cursor → Reading (Expression × Cursor)
  | 0, cursor => cursor.fail .endOfInput
  | fuel + 1, cursor =>
      let cursor := cursor.skipBlanks
      match cursor.rest with
      | [] => cursor.fail .endOfInput
      | character :: _ =>
          if character = '"' then do
            let (body, behind) ← readTextBody cursor.step.position cursor.step.rest
            return (.text (String.ofList body), behind)
          else if isDigit character || character = '-' then readInteger cursor
          else if character = '$' then readIndex cursor.step
          else if character = '(' then do
            let (value, behind) ← readSum fuel cursor.step
            return (value, ← expect ')' behind)
          else readNamed cursor

/-- A sum of one or more terms. -/
def readSum : Nat → Cursor → Reading (Expression × Cursor)
  | 0, cursor => cursor.fail .endOfInput
  | fuel + 1, cursor => do
      let (first, behind) ← readTerm fuel cursor
      readSumTail fuel first behind

/-- The further terms of a sum. -/
def readSumTail : Nat → Expression → Cursor → Reading (Expression × Cursor)
  | 0, _, cursor => cursor.fail .endOfInput
  | fuel + 1, left, cursor =>
      let cursor := cursor.skipBlanks
      if cursor.rest.head? = some '+' then do
        let (right, behind) ← readTerm fuel cursor.step
        readSumTail fuel (.sum left right) behind
      else .ok (left, cursor)

end

/-- An amount of fuel that no reading from the cursor uses up. -/
def Cursor.fuel (cursor : Cursor) : Nat :=
  2 * cursor.rest.length + 3

/-- An expression. -/
def readExpression (cursor : Cursor) : Reading (Expression × Cursor) :=
  readSum cursor.fuel cursor

/-- The arguments of a call and its closing parenthesis; there is at least one. -/
def readArguments : Nat → Cursor → Reading (List Expression × Cursor)
  | 0, cursor => cursor.fail .endOfInput
  | fuel + 1, cursor => do
      let (value, behind) ← readExpression cursor
      let behind := behind.skipBlanks
      match behind.rest.head? with
      | some ',' =>
          let (values, behind) ← readArguments fuel behind.step
          return (value :: values, behind)
      | some ')' => return ([value], behind.step)
      | _ => behind.fail .expectedCommaOrParenthesis

/-- The optional argument list of a call. -/
def readCallTail (cursor : Cursor) : Reading (List Expression × Cursor) :=
  let cursor := cursor.skipBlanks
  if cursor.rest.head? = some '(' then
    let inside := cursor.step.skipBlanks
    if inside.rest.head? = some ')' then .ok ([], inside.step)
    else readArguments inside.fuel inside
  else .ok ([], cursor)

mutual

/-- The statement at the cursor. -/
def readStatement : Nat → Cursor → Reading (Statement × Cursor)
  | 0, cursor => cursor.fail .endOfInput
  | fuel + 1, cursor =>
      match readWord? cursor with
      | none => cursor.fail .expectedStatement
      | some (word, behind) =>
          match word with
          | "print" => do
              let (value, behind) ← readExpression behind
              return (.print value, behind)
          | "eprint" => do
              let (value, behind) ← readExpression behind
              return (.printError value, behind)
          | "include" => do
              let (document, behind) ← readExpression behind
              return (.includeDocument document, behind)
          | "return" => do
              let (value, behind) ← readExpression behind
              return (.giveBack value, behind)
          | "set" => do
              let (name, behind) ← readName behind
              let (value, behind) ← readExpression (← expect '=' behind)
              return (.assign name value, behind)
          | "global" => do
              let (name, behind) ← readName behind
              let (value, behind) ← readExpression (← expect '=' behind)
              return (.assignGlobal name value, behind)
          | "def" => do
              let (name, behind) ← readName behind
              let (body, behind) ← readBlock fuel true (← expect '\x7b' behind)
              return (.define name body, behind)
          | "call" => do
              let (name, behind) ← readName behind
              let (arguments, behind) ← readCallTail behind
              return (.call name arguments, behind)
          | other => behind.fail (.unknownStatement other)

/-- The statements up to the end of the text or, in braces, up to the closing
brace. -/
def readBlock : Nat → Bool → Cursor → Reading (List Statement × Cursor)
  | 0, _, cursor => cursor.fail .endOfInput
  | fuel + 1, braced, cursor =>
      let cursor := cursor.skipGaps
      match cursor.rest with
      | [] => if braced then cursor.fail .openBlock else .ok ([], cursor)
      | character :: _ =>
          if character = '\x7d' then
            if braced then .ok ([], cursor.step) else cursor.fail .strayBrace
          else do
            let (statement, behind) ← readStatement fuel cursor
            let (statements, behind) ← readBlock fuel braced behind
            return (statement :: statements, behind)

end

/-- The statements of a program text, or its first mistake. -/
def parse (text : String) : Reading (List Statement) :=
  let cursor := Cursor.ofText text
  (readBlock cursor.fuel false cursor).map Prod.fst

end DocumentHost.Mini

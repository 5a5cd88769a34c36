import DocumentHost.Text.Position

/-!
# Mistakes in Mini programs

A program that does not parse has one first mistake, at the place where reading
stopped.
-/

namespace DocumentHost.Mini

/-- What is wrong with a program. -/
inductive Mistake where
  | expectedStatement
  | unknownStatement (word : String)
  | expectedName
  | expected (character : Char)
  | openBlock
  | strayBrace
  | expectedCommaOrParenthesis
  | endOfInput
  | expectedIndex
  | incompleteEscape
  | unknownEscape (character : Char)
  | openText
  | invalidInteger
  | unexpectedCharacter
  | unexpectedKeyword (word : String)
deriving DecidableEq, Repr, Inhabited

/-- The description of a mistake. -/
def Mistake.message : Mistake → String
  | .expectedStatement => "expected statement"
  | .unknownStatement word => "unknown statement '" ++ word ++ "'"
  | .expectedName => "expected name"
  | .expected character => "expected '" ++ String.singleton character ++ "'"
  | .openBlock => "unterminated block"
  | .strayBrace => "unexpected '\x7d'"
  | .expectedCommaOrParenthesis => "expected ',' or ')'"
  | .endOfInput => "unexpected end of input"
  | .expectedIndex => "expected argument index after '$'"
  | .incompleteEscape => "incomplete escape"
  | .unknownEscape character => "unknown escape: \\" ++ String.singleton character
  | .openText => "unterminated string literal"
  | .invalidInteger => "invalid integer literal"
  | .unexpectedCharacter => "unexpected character"
  | .unexpectedKeyword word => "unexpected keyword '" ++ word ++ "'"

/-- A mistake and its place in the program text. -/
structure SyntaxError where
  position : Position
  mistake : Mistake
deriving DecidableEq, Repr, Inhabited

/-- The written form: place, then description. -/
def SyntaxError.render (error : SyntaxError) : String :=
  error.position.render ++ ": " ++ error.mistake.message

end DocumentHost.Mini

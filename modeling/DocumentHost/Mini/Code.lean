/-!
# Generated Mini code

The host writes Mini code of its own: to print a literal text, to print or
include what an expression denotes, and to call an entry point.
-/

namespace DocumentHost.Mini

/-- The form of a character inside a text of a program. -/
def escapeCharacter : Char → List Char
  | '"' => ['\\', '"']
  | '\\' => ['\\', '\\']
  | '\n' => ['\\', 'n']
  | '\r' => ['\\', 'r']
  | '\t' => ['\\', 't']
  | other => [other]

/-- The form of a text between the quotes of a program. -/
def escape (text : List Char) : List Char :=
  text.flatMap escapeCharacter

/-- Code that prints a text. -/
def codeForLiteral (text : String) : String :=
  "print \"" ++ String.ofList (escape text.toList) ++ "\";"

/-- Code that prints the value of an expression. -/
def codeForExpression (expression : String) : String :=
  "print (" ++ expression ++ ");"

/-- Code that includes the document an expression names. -/
def codeForInclude (expression : String) : String :=
  "include (" ++ expression ++ ");"

/-- Code that calls an entry point. -/
def codeForEntry (name : String) : String :=
  "call " ++ name ++ ";"

end DocumentHost.Mini

import DocumentHost.Text.Hidden
import DocumentHost.Text.Encoding

/-!
# Texts in messages

Messages show a text or a path in quotes.  Quotes, backslashes and common
controls are escaped by a letter, and characters that do not show by themselves
by their code point.
-/

namespace DocumentHost.Text

/-- The escape of a character by its code point. -/
def codeEscape (character : Char) : String :=
  "\\u\x7b" ++ hexadecimal 1 character.toNat ++ "\x7d"

/-- The form of a character inside quotes. -/
def escaped (character : Char) : String :=
  match character with
  | '\x00' => "\\0"
  | '\t' => "\\t"
  | '\n' => "\\n"
  | '\r' => "\\r"
  | '"' => "\\\""
  | '\\' => "\\\\"
  | other => if isHidden other then codeEscape other else String.singleton other

/-- A text in quotes. -/
def quoted (text : String) : String :=
  "\"" ++ String.join (text.toList.map escaped) ++ "\""

end DocumentHost.Text

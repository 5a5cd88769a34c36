import DocumentHost.Decimal.Shortest
import DocumentHost.Json.Value
import DocumentHost.Text.Encoding

/-!
# Written values

A value is written without blanks, or spread over lines with two spaces for
each level.  Texts escape the quote, the backslash and the control characters;
numbers with a point take the fewest digits that identify them.
-/

namespace DocumentHost.Json

/-- The escape of a character inside a text, or the character itself. -/
def escapeCharacter (character : Char) : List Char :=
  match character with
  | '"' => ['\\', '"']
  | '\\' => ['\\', '\\']
  | '\n' => ['\\', 'n']
  | '\r' => ['\\', 'r']
  | '\t' => ['\\', 't']
  | '\x08' => ['\\', 'b']
  | '\x0c' => ['\\', 'f']
  | other =>
      if other.toNat < 0x20 then
        ['\\', 'u', '0', '0', Text.hexDigit (other.toNat / 16), Text.hexDigit (other.toNat % 16)]
      else [other]

/-- A text in quotes. -/
def quote (text : String) : String :=
  "\"" ++ String.ofList (text.toList.flatMap escapeCharacter) ++ "\""

/-- Digits of a number in base ten. -/
def decimalDigits (number : Nat) : List Char :=
  Nat.toDigits 10 number

/-- The layout of the digits of a positive number.  The point stands within the
digits or close to them as long as it is less than seventeen places from the
left and at most four zeros precede the digits; otherwise an exponent with a sign
follows. -/
def layout (decimal : Decimal.Scaled) : String :=
  let digits := decimalDigits decimal.digits
  let count := digits.length
  let point : Int := count + decimal.scale
  if 0 ≤ decimal.scale && point ≤ 16 then
    String.ofList (digits ++ List.replicate decimal.scale.toNat '0') ++ ".0"
  else if 0 < point && point ≤ 16 then
    String.ofList (digits.take point.toNat) ++ "." ++ String.ofList (digits.drop point.toNat)
  else if -5 < point && point ≤ 0 then
    "0." ++ String.ofList (List.replicate (-point).toNat '0' ++ digits)
  else
    let tail := if count = 1 then "" else "." ++ String.ofList (digits.drop 1)
    let mark := if 0 < point then "e+" else "e"
    String.ofList (digits.take 1) ++ tail ++ mark ++ toString (point - 1)

/-- A floating point number.  What is no number has no written form of its own. -/
def renderFloat (value : Float) : String :=
  if value.isNaN || value.isInf then "null"
  else
    let bits := value.toBits
    let negative := bits >>> 63 = 1
    let size := bits &&& 0x7FFFFFFFFFFFFFFF
    let body := if size = 0 then "0.0" else layout (Decimal.Target.ofBits size).shortest
    if negative then "-" ++ body else body

mutual

/-- The written form without blanks. -/
def compact : Json → String
  | .null => "null"
  | .bool value => if value then "true" else "false"
  | .integer value => toString value
  | .float value => renderFloat value
  | .text value => quote value
  | .array items => "[" ++ compactItems items ++ "]"
  | .object members => "\x7b" ++ compactMembers members ++ "\x7d"

/-- Items separated by commas. -/
def compactItems : List Json → String
  | [] => ""
  | [item] => compact item
  | item :: next :: rest => compact item ++ "," ++ compactItems (next :: rest)

/-- Members separated by commas. -/
def compactMembers : List (String × Json) → String
  | [] => ""
  | [(name, value)] => quote name ++ ":" ++ compact value
  | (name, value) :: next :: rest =>
      quote name ++ ":" ++ compact value ++ "," ++ compactMembers (next :: rest)

end

/-- The start of a line at a level. -/
def indentation (level : Nat) : String :=
  "\n" ++ String.ofList (List.replicate (2 * level) ' ')

mutual

/-- The written form spread over lines, from a level on. -/
def spread (level : Nat) : Json → String
  | .array [] => "[]"
  | .array items => "[" ++ spreadItems (level + 1) items ++ indentation level ++ "]"
  | .object [] => "\x7b\x7d"
  | .object members =>
      "\x7b" ++ spreadMembers (level + 1) members ++ indentation level ++ "\x7d"
  | .null => "null"
  | .bool value => if value then "true" else "false"
  | .integer value => toString value
  | .float value => renderFloat value
  | .text value => quote value

/-- Items on lines of their own. -/
def spreadItems (level : Nat) : List Json → String
  | [] => ""
  | [item] => indentation level ++ spread level item
  | item :: next :: rest =>
      indentation level ++ spread level item ++ "," ++ spreadItems level (next :: rest)

/-- Members on lines of their own. -/
def spreadMembers (level : Nat) : List (String × Json) → String
  | [] => ""
  | [(name, value)] => indentation level ++ quote name ++ ": " ++ spread level value
  | (name, value) :: next :: rest =>
      indentation level ++ quote name ++ ": " ++ spread level value ++ "," ++
        spreadMembers level (next :: rest)

end

/-- The written form spread over lines. -/
def pretty (value : Json) : String :=
  spread 0 value

/-- The form in which a program prints a value: texts without quotes, and nothing
for null. -/
def display : Json → String
  | .null => ""
  | .text value => value
  | other => other.compact

end DocumentHost.Json

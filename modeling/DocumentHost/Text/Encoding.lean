/-!
# Texts as bytes

Files hold bytes, and a text is read from them by UTF-8.  Bytes that are no
encoding can be refused, or shown: then each longest beginning of an encoding
that goes wrong becomes one replacement character.
-/

namespace DocumentHost.Text

/-- The bytes of a text. -/
def encode (text : String) : List UInt8 :=
  text.toUTF8.toList

/-- A byte that continues an encoding. -/
def isContinuation (byte : UInt8) : Bool :=
  0x80 ≤ byte && byte ≤ 0xBF

/-- The number of bytes that follow a leading byte, and the bounds of the first of
them.  The bounds rule out long forms, surrogates and numbers beyond the last
code point. -/
def leading? (byte : UInt8) : Option (Nat × UInt8 × UInt8) :=
  if 0xC2 ≤ byte && byte ≤ 0xDF then some (1, 0x80, 0xBF)
  else if byte = 0xE0 then some (2, 0xA0, 0xBF)
  else if byte = 0xED then some (2, 0x80, 0x9F)
  else if 0xE1 ≤ byte && byte ≤ 0xEF then some (2, 0x80, 0xBF)
  else if byte = 0xF0 then some (3, 0x90, 0xBF)
  else if 0xF1 ≤ byte && byte ≤ 0xF3 then some (3, 0x80, 0xBF)
  else if byte = 0xF4 then some (3, 0x80, 0x8F)
  else none

/-- Take up to `count` continuation bytes into a code point; the last component
says how many are missing. -/
def takeContinuation : Nat → Nat → List UInt8 → Nat × List UInt8 × Nat
  | 0, code, bytes => (code, bytes, 0)
  | count + 1, code, [] => (code, [], count + 1)
  | count + 1, code, byte :: rest =>
      if isContinuation byte then
        takeContinuation count (code * 64 + (byte.toNat - 0x80)) rest
      else (code, byte :: rest, count + 1)

/-- The code point bits of a leading byte that is followed by `count` bytes. -/
def leadingBits (count : Nat) (byte : UInt8) : Nat :=
  byte.toNat % (1 <<< (6 - count))

/-- The character at the start of the bytes behind `byte`, or `none` for a longest
beginning of an encoding that goes wrong; and the bytes behind it. -/
def decodeFrom (byte : UInt8) (rest : List UInt8) : Option Char × List UInt8 :=
  if byte < 0x80 then (some (Char.ofNat byte.toNat), rest)
  else
    match leading? byte, rest with
    | some (count, low, high), second :: others =>
        if low ≤ second && second ≤ high then
          let first := leadingBits count byte * 64 + (second.toNat - 0x80)
          match takeContinuation (count - 1) first others with
          | (code, left, 0) => (some (Char.ofNat code), left)
          | (_, left, _ + 1) => (none, left)
        else (none, rest)
    | _, _ => (none, rest)

/-- The characters of a byte sequence, `none` where there is no encoding. -/
def decodeAll : Nat → List UInt8 → List (Option Char)
  | 0, _ => []
  | _, [] => []
  | fuel + 1, byte :: rest =>
      let (character, left) := decodeFrom byte rest
      character :: decodeAll fuel left

/-- The text of a byte sequence, if all of it is an encoding. -/
def decode? (bytes : List UInt8) : Option String :=
  ((decodeAll bytes.length bytes).mapM id).map String.ofList

/-- The text of a byte sequence with replacement characters. -/
def decodeLossy (bytes : List UInt8) : String :=
  String.ofList ((decodeAll bytes.length bytes).map fun character => character.getD '\uFFFD')

/-- The value of a hexadecimal digit. -/
def hexValue? (character : Char) : Option Nat :=
  if '0' ≤ character && character ≤ '9' then some (character.toNat - '0'.toNat)
  else if 'a' ≤ character && character ≤ 'f' then some (character.toNat - 'a'.toNat + 10)
  else if 'A' ≤ character && character ≤ 'F' then some (character.toNat - 'A'.toNat + 10)
  else none

/-- The lower case hexadecimal digit of a value below sixteen. -/
def hexDigit (value : Nat) : Char :=
  if value < 10 then Char.ofNat ('0'.toNat + value) else Char.ofNat ('a'.toNat + value - 10)

/-- A number in lower case hexadecimal digits, with at least `width` of them. -/
def hexadecimal (width : Nat) (number : Nat) : String :=
  let digits := String.ofList ((Nat.toDigits 16 number))
  String.ofList (List.replicate (width - digits.length) '0') ++ digits

/-- The bytes written as pairs of hexadecimal digits. -/
def bytesOfHex? : List Char → Option (List UInt8)
  | [] => some []
  | [_] => none
  | high :: low :: rest => do
      let upper ← hexValue? high
      let lower ← hexValue? low
      let bytes ← bytesOfHex? rest
      return (upper * 16 + lower).toUInt8 :: bytes

/-- Bytes as pairs of lower case hexadecimal digits. -/
def hexOfBytes (bytes : List UInt8) : String :=
  String.ofList (bytes.flatMap fun byte =>
    [hexDigit (byte.toNat / 16), hexDigit (byte.toNat % 16)])

end DocumentHost.Text

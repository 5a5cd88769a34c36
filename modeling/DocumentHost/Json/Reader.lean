import DocumentHost.Decimal.Literal
import DocumentHost.Json.Value
import DocumentHost.Text.Encoding
import DocumentHost.Text.Search

/-!
# Reading written values

Reading has two steps.  The first finds the structure of the text and keeps it
as it stands: numbers with all digits, members in written order with
repetitions, texts that may turn out to be unreadable.  The second takes a
structure as a value and refuses what no value can be.  Whoever skips a member
needs the first step alone.
-/

namespace DocumentHost.Json

/-- The structure of a written value.  A text is `none` when its escapes or bytes
denote no characters. -/
inductive Node where
  | null
  | bool (value : Bool)
  | number (literal : Decimal.Literal)
  | text (value : Option String)
  | array (items : List Node)
  | object (members : List (Option String × Node))
deriving Inhabited

/-- The byte of an ASCII character. -/
def byteOf (character : Char) : UInt8 :=
  character.toNat.toUInt8

/-- The blanks between the parts of a written value. -/
def isSpace (byte : UInt8) : Bool :=
  byte = 0x20 || byte = 0x09 || byte = 0x0A || byte = 0x0D

/-- The value of a decimal digit. -/
def digit? (byte : UInt8) : Option Nat :=
  if 0x30 ≤ byte && byte ≤ 0x39 then some (byte.toNat - 0x30) else none

/-- The decimal digits at the front. -/
def readDigits : List UInt8 → List Nat × List UInt8
  | [] => ([], [])
  | byte :: rest =>
      match digit? byte with
      | some value =>
          let (values, left) := readDigits rest
          (value :: values, left)
      | none => ([], byte :: rest)

/-- An exponent, if there is one; it needs a digit. -/
def readExponent? (bytes : List UInt8) : Option (Option (Bool × List Nat) × List UInt8) :=
  match bytes with
  | [] => some (none, [])
  | byte :: rest =>
      if byte = byteOf 'e' || byte = byteOf 'E' then
        let (down, unsigned) :=
          match rest with
          | sign :: behind =>
              if sign = byteOf '-' then (true, behind)
              else if sign = byteOf '+' then (false, behind)
              else (false, rest)
          | [] => (false, [])
        match readDigits unsigned with
        | ([], _) => none
        | (digits, left) => some (some (down, digits), left)
      else some (none, bytes)

/-- The digits behind a point, if there is one; it needs a digit. -/
def readFraction? (bytes : List UInt8) : Option (Option (List Nat) × List UInt8) :=
  match bytes with
  | [] => some (none, [])
  | byte :: rest =>
      if byte = byteOf '.' then
        match readDigits rest with
        | ([], _) => none
        | (digits, left) => some (some digits, left)
      else some (none, bytes)

/-- A number.  No digit may follow a leading zero. -/
def readNumber? (bytes : List UInt8) : Option (Node × List UInt8) := do
  let (negative, unsigned) :=
    match bytes with
    | byte :: rest => if byte = byteOf '-' then (true, rest) else (false, bytes)
    | [] => (false, [])
  let (whole, behindWhole) := readDigits unsigned
  match whole with
  | [] => none
  | 0 :: _ :: _ => none
  | _ =>
    let (fraction, behindFraction) ← readFraction? behindWhole
    let (exponent, left) ← readExponent? behindFraction
    return (.number ⟨negative, whole, fraction, exponent⟩, left)

/-- The value of four hexadecimal digits. -/
def unitOf? (first second third fourth : UInt8) : Option Nat := do
  let value (byte : UInt8) : Option Nat := Text.hexValue? (Char.ofNat byte.toNat)
  return (((← value first) * 16 + (← value second)) * 16 + (← value third)) * 16 +
    (← value fourth)

/-- The character of a simple escape. -/
def simpleEscape? (byte : UInt8) : Option UInt8 :=
  if byte = byteOf '"' || byte = byteOf '\\' || byte = byteOf '/' then some byte
  else if byte = byteOf 'b' then some 0x08
  else if byte = byteOf 'f' then some 0x0C
  else if byte = byteOf 'n' then some 0x0A
  else if byte = byteOf 'r' then some 0x0D
  else if byte = byteOf 't' then some 0x09
  else none

/-- What has been read of a text: the bytes in reverse, a high surrogate that waits
for its partner, and whether all escapes denoted characters. -/
structure TextState where
  reversed : List UInt8 := []
  waiting : Option Nat := none
  sound : Bool := true

/-- Take up an ordinary byte. -/
def TextState.push (state : TextState) (byte : UInt8) : TextState :=
  ⟨byte :: state.reversed, none, state.sound && state.waiting.isNone⟩

/-- Take up a code point. -/
def TextState.pushCode (state : TextState) (code : Nat) : TextState :=
  ⟨(Text.encode (String.singleton (Char.ofNat code))).reverse ++ state.reversed, none,
    state.sound⟩

/-- Take up a 16-bit unit: two surrogates make one character. -/
def TextState.pushUnit (state : TextState) (unit : Nat) : TextState :=
  let low := 0xDC00 ≤ unit && unit ≤ 0xDFFF
  let high := 0xD800 ≤ unit && unit ≤ 0xDBFF
  match state.waiting with
  | some first =>
      if low then state.pushCode (0x10000 + (first - 0xD800) * 0x400 + (unit - 0xDC00))
      else ⟨state.reversed, none, false⟩
  | none =>
      if high then { state with waiting := some unit }
      else if low then { state with sound := false }
      else state.pushCode unit

/-- The text read, if all of it denotes characters. -/
def TextState.finish (state : TextState) : Option String :=
  if state.sound && state.waiting.isNone then Text.decode? state.reversed.reverse else none

/-- The rest of a text behind its opening quote.  Control characters must be
escaped. -/
def readText? (state : TextState) : List UInt8 → Option (Option String × List UInt8)
  | [] => none
  | 0x22 :: rest => some (state.finish, rest)
  | 0x5C :: 0x75 :: first :: second :: third :: fourth :: rest =>
      match unitOf? first second third fourth with
      | some unit => readText? (state.pushUnit unit) rest
      | none => none
  | 0x5C :: byte :: rest =>
      match simpleEscape? byte with
      | some character => readText? (state.push character) rest
      | none => none
  | byte :: rest => if byte < 0x20 || byte = 0x5C then none else readText? (state.push byte) rest

/-- Drop the blanks at the front. -/
def skipSpace (bytes : List UInt8) : List UInt8 :=
  bytes.dropWhile isSpace

/-- Remove a word from the front. -/
def takeWord? (word : String) (bytes : List UInt8) : Option (List UInt8) :=
  Text.behindFront? (Text.encode word) bytes

mutual

/-- The structure at the front, behind blanks. -/
def readNode? : Nat → List UInt8 → Option (Node × List UInt8)
  | 0, _ => none
  | fuel + 1, bytes =>
      match skipSpace bytes with
      | [] => none
      | byte :: rest =>
          if byte = byteOf '"' then
            (readText? {} rest).map fun read => (Node.text read.1, read.2)
          else if byte = byteOf '[' then
            match skipSpace rest with
            | 0x5D :: left => some (.array [], left)
            | _ => (readItems? fuel rest).map fun read => (Node.array read.1, read.2)
          else if byte = 0x7B then
            match skipSpace rest with
            | 0x7D :: left => some (.object [], left)
            | _ => (readMembers? fuel rest).map fun read => (Node.object read.1, read.2)
          else if byte = byteOf 'n' then
            (takeWord? "null" (byte :: rest)).map fun left => (Node.null, left)
          else if byte = byteOf 't' then
            (takeWord? "true" (byte :: rest)).map fun left => (Node.bool true, left)
          else if byte = byteOf 'f' then
            (takeWord? "false" (byte :: rest)).map fun left => (Node.bool false, left)
          else readNumber? (byte :: rest)

/-- The items of an array and its closing bracket; there is at least one. -/
def readItems? : Nat → List UInt8 → Option (List Node × List UInt8)
  | 0, _ => none
  | fuel + 1, bytes => do
      let (item, behind) ← readNode? fuel bytes
      match skipSpace behind with
      | 0x2C :: rest =>
          let (items, left) ← readItems? fuel rest
          return (item :: items, left)
      | 0x5D :: left => return ([item], left)
      | _ => none

/-- The members of an object and its closing bracket; there is at least one. -/
def readMembers? : Nat → List UInt8 → Option (List (Option String × Node) × List UInt8)
  | 0, _ => none
  | fuel + 1, bytes => do
      match skipSpace bytes with
      | 0x22 :: behindQuote =>
          let (name, behindName) ← readText? {} behindQuote
          match skipSpace behindName with
          | 0x3A :: behindColon =>
              let (value, behind) ← readNode? fuel behindColon
              match skipSpace behind with
              | 0x2C :: rest =>
                  let (members, left) ← readMembers? fuel rest
                  return ((name, value) :: members, left)
              | 0x7D :: left => return ([(name, value)], left)
              | _ => none
          | _ => none
      | _ => none

end

/-- The structure of bytes that hold one written value and blanks around it. -/
def Node.ofBytes? (bytes : List UInt8) : Option Node := do
  let (node, left) ← readNode? (2 * bytes.length + 2) bytes
  if (skipSpace left).isEmpty then some node else none

/-- The deepest nesting of arrays and objects in a value that is read. -/
def nestingLimit : Nat := 128

/-- The value of a structure.  `levels` bounds the nesting from here on. -/
def Node.value? : Nat → Node → Option Json
  | 0, _ => none
  | _ + 1, .null => some .null
  | _ + 1, .bool value => some (.bool value)
  | _ + 1, .number literal =>
      literal.number?.map fun number =>
        match number with
        | .integer value => .integer value
        | .float value => .float value
  | _ + 1, .text value => value.map .text
  | levels + 1, .array items =>
      if levels = 0 then none else (items.mapM (Node.value? levels)).map .array
  | levels + 1, .object members =>
      if levels = 0 then none
      else
        (members.mapM fun (member : Option String × Node) => do
          let name ← member.1
          let value ← Node.value? levels member.2
          return (name, value)).map ofMembers

/-- The value of a structure. -/
def Node.toValue? (node : Node) : Option Json :=
  node.value? nestingLimit

/-- The value that a text writes. -/
def parse? (text : String) : Option Json := do
  (← Node.ofBytes? (Text.encode text)).toValue?

end DocumentHost.Json

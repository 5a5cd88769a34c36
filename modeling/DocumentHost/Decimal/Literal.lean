/-!
# Numbers as they are written

A written number has a sign, digits before and after the point, and an
exponent.  Without point and exponent it is an integer as long as it fits 64
bits.  Otherwise it is a floating point number: the leading digits that fit 64
bits are its significand, every further digit only moves the scale, and one
multiplication or division by a power of ten brings it to size.
-/

namespace DocumentHost.Decimal

/-- The parts of a written number.  A missing point or exponent is `none`. -/
structure Literal where
  negative : Bool
  whole : List Nat
  fraction : Option (List Nat)
  exponent : Option (Bool × List Nat)
deriving Repr, Inhabited

/-- What a written number denotes. -/
inductive Number where
  | integer (value : Int)
  | float (value : Float)
deriving Repr

/-- The largest significand. -/
def significandLimit : Nat := 18446744073709551615

/-- The largest exponent that is read exactly. -/
def exponentLimit : Nat := 2147483647

/-- Take up digits while the significand fits, and return the digits that are left. -/
def takeDigits (significand : Nat) : List Nat → Nat × List Nat
  | [] => (significand, [])
  | digit :: rest =>
      if significandLimit < significand * 10 + digit then (significand, digit :: rest)
      else takeDigits (significand * 10 + digit) rest

/-- Divide by the largest power of ten until the scale is one that a single
division can bring about. -/
def scaleDown : Nat → Float → Nat → Float
  | 0, value, _ => value
  | tries + 1, value, places =>
      if places ≤ 308 then value / Float.ofScientific 1 false places
      else if value == 0 then value
      else scaleDown tries (value / Float.ofScientific 1 false 308) (places - 308)

/-- The number `significand * 10 ^ scale`, unless it is too large. -/
def scaled? (significand : Nat) (scale : Int) : Option Float :=
  let value := significand.toUInt64.toFloat
  if scale < 0 then some (scaleDown 40 value (-scale).toNat)
  else if 308 < scale then (if significand = 0 then some value else none)
  else
    let product := value * Float.ofScientific 1 false scale.toNat
    if product.isInf then none else some product

/-- Apply a sign. -/
def signed (negative : Bool) (value : Float) : Float :=
  if negative then -value else value

/-- The value of an exponent, unless it exceeds the limit. -/
def exponentValue? (digits : List Nat) : Option Nat :=
  digits.foldl
    (fun total digit =>
      total.bind fun value =>
        if exponentLimit < value * 10 + digit then none else some (value * 10 + digit))
    (some 0)

/-- Keep an exponent within its limits. -/
def clampExponent (exponent : Int) : Int :=
  max (-2147483648) (min exponent exponentLimit)

/-- The floating point number of a significand, the scale reached so far and the
written exponent. -/
def withExponent? (negative : Bool) (significand : Nat) (scale : Int) :
    Option (Bool × List Nat) → Option Float
  | none => (scaled? significand scale).map (signed negative)
  | some (down, digits) =>
      match exponentValue? digits with
      | some value =>
          let total := clampExponent (if down then scale - value else scale + value)
          (scaled? significand total).map (signed negative)
      | none =>
          if significand != 0 && !down then none else some (signed negative 0)

/-- The floating point number of a literal, unless it is too large. -/
def Literal.float? (literal : Literal) : Option Float :=
  let (whole, dropped) := takeDigits 0 literal.whole
  match literal.fraction with
  | none => withExponent? literal.negative whole dropped.length literal.exponent
  | some fraction =>
      let (significand, ignored) := takeDigits whole fraction
      let places : Nat := fraction.length - ignored.length
      withExponent? literal.negative significand (dropped.length - places : Int)
        literal.exponent

/-- What a literal denotes, unless it is too large.  A negative zero is a floating
point number. -/
def Literal.number? (literal : Literal) : Option Number :=
  let (whole, dropped) := takeDigits 0 literal.whole
  if literal.fraction.isNone && literal.exponent.isNone && dropped.isEmpty then
    if literal.negative then
      if whole = 0 || 9223372036854775808 < whole then
        some (.float (-whole.toUInt64.toFloat))
      else some (.integer (-whole))
    else some (.integer whole)
  else literal.float?.map .float

end DocumentHost.Decimal

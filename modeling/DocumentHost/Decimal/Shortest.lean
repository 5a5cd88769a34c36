/-!
# The fewest digits that identify a floating point number

A finite number stands for the interval of reals that are nearer to it than to
its neighbours.  Among the decimals in that interval the written form takes the
fewest digits, then the value nearest to the number, and on a tie the even
digit.  All comparisons are exact, in natural numbers.
-/

namespace DocumentHost.Decimal

/-- The number `digits * 10 ^ scale`. -/
structure Scaled where
  digits : Nat
  scale : Int
deriving DecidableEq, Repr, Inhabited

/-- A positive rational number together with its rounding interval: the number is
`four / (4 * unit)`, the ends are `low / (4 * unit)` and `high / (4 * unit)`. -/
structure Target where
  low : Nat
  four : Nat
  high : Nat
  unit : Nat
  /-- Whether the ends themselves round to the number. -/
  closed : Bool

/-- The target of `mantissa * 2 ^ exponent`.  Below a power of two the gap to the
neighbour is half as wide. -/
def Target.ofBinary (mantissa : Nat) (exponent : Int) (narrow : Bool) : Target :=
  let up := 1 <<< exponent.toNat
  { low := (4 * mantissa - (if narrow then 1 else 2)) * up
    four := 4 * mantissa * up
    high := (4 * mantissa + 2) * up
    unit := 1 <<< (-exponent).toNat
    closed := mantissa % 2 = 0 }

/-- The target of the bits of a finite positive number. -/
def Target.ofBits (bits : UInt64) : Target :=
  let field := ((bits >>> 52) &&& 0x7FF).toNat
  let fraction := (bits &&& 0xFFFFFFFFFFFFF).toNat
  if field = 0 then .ofBinary fraction (-1074) false
  else .ofBinary (0x10000000000000 + fraction) (field - 1075) (fraction = 0 && 1 < field)

/-- A decimal and a multiple of a quarter unit, brought to a common denominator. -/
def Target.sides (target : Target) (decimal : Scaled) (quarters : Nat) : Nat × Nat :=
  (decimal.digits * Nat.pow 10 decimal.scale.toNat * (4 * target.unit),
    quarters * Nat.pow 10 (-decimal.scale).toNat)

/-- Whether a decimal lies in the rounding interval. -/
def Target.holds (target : Target) (decimal : Scaled) : Bool :=
  let (lowDecimal, low) := target.sides decimal target.low
  let (highDecimal, high) := target.sides decimal target.high
  if target.closed then low ≤ lowDecimal && highDecimal ≤ high
  else low < lowDecimal && highDecimal < high

/-- The largest multiple of `10 ^ scale` that is not above the number. -/
def Target.floor (target : Target) (scale : Int) : Scaled :=
  ⟨target.four * Nat.pow 10 (-scale).toNat / (4 * target.unit * Nat.pow 10 scale.toNat), scale⟩

/-- The better of the two neighbours on the grid of `10 ^ scale`, if one of them
lies in the interval. -/
def Target.onGrid? (target : Target) (scale : Int) : Option Scaled :=
  let below := target.floor scale
  let above : Scaled := ⟨below.digits + 1, scale⟩
  match target.holds below && below.digits != 0, target.holds above with
  | true, false => some below
  | false, true => some above
  | false, false => none
  | true, true =>
      let (middle, number) :=
        target.sides ⟨2 * below.digits + 1, scale⟩ (2 * target.four)
      if number < middle then some below
      else if middle < number then some above
      else if below.digits % 2 = 0 then some below
      else some above

/-- The number of decimal digits of a natural number. -/
def digitCount (number : Nat) : Nat :=
  (Nat.toDigits 10 number).length

/-- The least number of decimal places at which the number reaches one. -/
def Target.leadingPlaces (target : Target) : Nat → Nat → Nat
  | 0, places => places
  | tries + 1, places =>
      if 4 * target.unit ≤ target.four * Nat.pow 10 places then places
      else target.leadingPlaces tries (places + 1)

/-- The least power of ten above the number. -/
def Target.magnitude (target : Target) : Int :=
  if 4 * target.unit ≤ target.four then digitCount (target.four / (4 * target.unit))
  else 1 - (target.leadingPlaces 400 1 : Int)

/-- Move the zeros at the end of the digits into the scale. -/
def Scaled.stripZeros : Nat → Scaled → Scaled
  | 0, decimal => decimal
  | tries + 1, decimal =>
      if decimal.digits % 10 = 0 && decimal.digits != 0 then
        Scaled.stripZeros tries ⟨decimal.digits / 10, decimal.scale + 1⟩
      else decimal

/-- The fewest digits that identify the number.  Seventeen digits always suffice;
were they not enough, the exact value is written. -/
def Target.shortest (target : Target) : Scaled :=
  let magnitude := target.magnitude
  let found := (List.range 17).findSome? fun extra =>
    target.onGrid? (magnitude - (extra + 1 : Nat))
  match found with
  | some decimal => decimal.stripZeros 20
  | none => ⟨target.four / 4 * Nat.pow 5 (Nat.log2 target.unit), -(Nat.log2 target.unit : Int)⟩

end DocumentHost.Decimal

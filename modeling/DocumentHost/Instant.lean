/-!
# Instants

An instant counts the nanoseconds since the beginning of 1970 in universal
time.  Its written form is a date, a time and a zero offset, with as many
fraction digits, none or three or six or nine, as the instant needs.
-/

namespace DocumentHost

/-- A point in time. -/
structure Instant where
  nanoseconds : Int
deriving DecidableEq, Repr, Inhabited

namespace Instant

/-- The instant of whole seconds and nanoseconds. -/
def ofSeconds (seconds : Int) (nanoseconds : Nat) : Instant :=
  ⟨seconds * 1000000000 + nanoseconds⟩

/-- A later instant. -/
def plusMilliseconds (instant : Instant) (milliseconds : Nat) : Instant :=
  ⟨instant.nanoseconds + milliseconds * 1000000⟩

/-- Whether an instant is not after another one. -/
def notAfter (first second : Instant) : Bool :=
  first.nanoseconds ≤ second.nanoseconds

/-- A day of the calendar. -/
structure Date where
  year : Int
  month : Nat
  day : Nat
deriving DecidableEq, Repr

/-- The date of a day counted from the beginning of 1970.  Years are counted from
March, so that the leap day is the last of its year; four centuries have 146097
days. -/
def Date.ofDay (day : Int) : Date :=
  let shifted := day + 719468
  let era := shifted.fdiv 146097
  let dayOfEra := (shifted.fmod 146097).toNat
  let yearOfEra :=
    (dayOfEra - dayOfEra / 1460 + dayOfEra / 36524 - dayOfEra / 146096) / 365
  let dayOfYear := dayOfEra - (365 * yearOfEra + yearOfEra / 4 - yearOfEra / 100)
  let marchMonth := (5 * dayOfYear + 2) / 153
  let dayOfMonth := dayOfYear - (153 * marchMonth + 2) / 5 + 1
  let month := if marchMonth < 10 then marchMonth + 3 else marchMonth - 9
  let year := (yearOfEra : Int) + era * 400 + (if month ≤ 2 then 1 else 0)
  ⟨year, month, dayOfMonth⟩

/-- A number with at least `width` digits. -/
def padded (width number : Nat) : String :=
  let digits := toString number
  String.ofList (List.replicate (width - digits.length) '0') ++ digits

/-- A year.  Beyond four digits, and before the year zero, it carries a sign. -/
def renderYear (year : Int) : String :=
  if 0 ≤ year && year ≤ 9999 then padded 4 year.toNat
  else (if year < 0 then "-" else "+") ++ padded 4 year.natAbs

/-- The fraction of a second. -/
def renderFraction (nanoseconds : Nat) : String :=
  if nanoseconds = 0 then ""
  else if nanoseconds % 1000000 = 0 then "." ++ padded 3 (nanoseconds / 1000000)
  else if nanoseconds % 1000 = 0 then "." ++ padded 6 (nanoseconds / 1000)
  else "." ++ padded 9 nanoseconds

/-- The written form of an instant. -/
def render (instant : Instant) : String :=
  let seconds := instant.nanoseconds.fdiv 1000000000
  let date := Date.ofDay (seconds.fdiv 86400)
  let secondOfDay := (seconds.fmod 86400).toNat
  renderYear date.year ++ "-" ++ padded 2 date.month ++ "-" ++ padded 2 date.day ++ "T" ++
    padded 2 (secondOfDay / 3600) ++ ":" ++ padded 2 (secondOfDay / 60 % 60) ++ ":" ++
    padded 2 (secondOfDay % 60) ++
    renderFraction (instant.nanoseconds.fmod 1000000000).toNat ++ "+00:00"

end Instant

end DocumentHost

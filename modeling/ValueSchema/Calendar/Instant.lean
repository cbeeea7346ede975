import ValueSchema.Calendar.CivilDate

/-!
# Instants

An `Instant` is a point of universal time: the seconds since the start of 1970
and the nanoseconds within the second.  A leap second has no number of its own.
It is the second before it with a billion nanoseconds more, so the nanoseconds
go up to two billion, and instants are ordered by seconds first.

The text of an instant is `YYYY-MM-DDTHH:MM:SS.mmmZ`, cut to milliseconds.
-/

namespace ValueSchema

/-- A point of universal time. -/
structure Instant where
  /-- The seconds since the start of 1970. -/
  seconds : Int
  /-- The nanoseconds within the second, a billion or more in a leap second. -/
  nanos : Nat
deriving DecidableEq, Repr

namespace Instant

/-- The order of time. -/
def order (a b : Instant) : Ordering :=
  (compare a.seconds b.seconds).then (compare a.nanos b.nanos)

/-- The milliseconds since the start of 1970, a leap second counting a thousand
more than the second before it. -/
def toMillis (t : Instant) : Int := t.seconds * 1000 + (t.nanos / 1000000 : Nat)

/-- The instant a number of milliseconds after the start of 1970, if its day is
supported. -/
def ofMillis? (ms : Int) : Option Instant :=
  let seconds := Int.fdiv ms 1000
  let day := Int.fdiv seconds 86400
  if CivilDate.firstDay ≤ day ∧ day ≤ CivilDate.lastDay then
    some ⟨seconds, (Int.fmod ms 1000).toNat * 1000000⟩
  else none

/-- A number with leading zeros, `width` digits at least. -/
def padded (width n : Nat) : String :=
  let digits := Nat.toDigits 10 n
  String.ofList (List.replicate (width - digits.length) '0' ++ digits)

/-- A year: four digits from 0 to 9999, otherwise a sign and at least four. -/
def yearText (year : Int) : String :=
  if 0 ≤ year ∧ year ≤ 9999 then padded 4 year.natAbs
  else (if year < 0 then "-" else "+") ++ padded 4 year.natAbs

/-- The text of an instant, with milliseconds. -/
def toText (t : Instant) : String :=
  let date := CivilDate.ofDays (Int.fdiv t.seconds 86400)
  let s := (Int.fmod t.seconds 86400).toNat
  let leap := 1000000000 ≤ t.nanos
  let millis := (if leap then t.nanos - 1000000000 else t.nanos) / 1000000
  yearText date.year ++ "-" ++ padded 2 date.month ++ "-" ++ padded 2 date.day ++ "T"
    ++ padded 2 (s / 3600) ++ ":" ++ padded 2 (s / 60 % 60) ++ ":"
    ++ padded 2 (s % 60 + if leap then 1 else 0) ++ "." ++ padded 3 millis ++ "Z"

end Instant

end ValueSchema

import ValueSchema.Calendar.Instant
import ValueSchema.Double.Reader
import ValueSchema.Text.Blank

/-!
# Reading instants

Two forms of text denote an instant.  An *internet timestamp* has a date with a
year of four digits, a `T` in either case or one space, a time with seconds, an
optional fraction of a second and an offset from universal time; the second 60 is
the leap second of its minute.  A *plain day* has a year, a month and a day with
dashes between, white space allowed before each number, and denotes the start of
the day.  `Instant.ofText?` tries them in this order.
-/

namespace ValueSchema

namespace Instant

/-- A reader of the front of a text: what it read and the rest. -/
abbrev Front (α : Type) := List Char → Option (α × List Char)

/-- Between `least` and `most` decimal digits, as many as there are. -/
def readNumber (least most : Nat) : Front Nat := fun cs =>
  let digits := (cs.take most).takeWhile Char.isDigit
  if least ≤ digits.length then some (digitsToNat digits, cs.drop digits.length) else none

/-- One character of a test. -/
def readChar (test : Char → Bool) : Front Unit
  | c :: r => if test c then some ((), r) else none
  | [] => none

/-- The nanoseconds of the fraction, if the text goes on with a point.  Digits
after the ninth are dropped. -/
def readFraction : Front Nat
  | '.' :: r =>
      let digits := r.takeWhile Char.isDigit
      if digits = [] then none
      else
        let nine := digits.take 9
        some (digitsToNat nine * Nat.pow 10 (9 - nine.length), r.dropWhile Char.isDigit)
  | cs => some (0, cs)

/-- The offset from universal time in seconds: the letter `Z` for none, or a sign,
hours, a colon and minutes, less than a day.  The minus may be the dash or the
mathematical sign. -/
def readOffset : Front Int
  | [] => none
  | c :: r => do
      if c = 'Z' ∨ c = 'z' then return (0, r)
      let negative ← if c = '+' then some false
        else if c = '-' ∨ c = '\u2212' then some true else none
      let (hours, r) ← readNumber 2 2 r
      let ((), r) ← readChar (· = ':') r
      let (minutes, r) ← readNumber 2 2 r
      if hours < 24 ∧ minutes < 60 then
        let offset : Int := hours * 3600 + minutes * 60
        return (if negative then -offset else offset, r)
      else none

/-- The instant of an internet timestamp. -/
def ofTimestamp? (cs : List Char) : Option Instant := do
  let (year, cs) ← readNumber 4 4 cs
  let ((), cs) ← readChar (· = '-') cs
  let (month, cs) ← readNumber 2 2 cs
  let ((), cs) ← readChar (· = '-') cs
  let (day, cs) ← readNumber 2 2 cs
  let ((), cs) ← readChar (fun c => c = 'T' || c = 't' || c = ' ') cs
  let (hour, cs) ← readNumber 2 2 cs
  let ((), cs) ← readChar (· = ':') cs
  let (minute, cs) ← readNumber 2 2 cs
  let ((), cs) ← readChar (· = ':') cs
  let (second, cs) ← readNumber 2 2 cs
  let (nanos, cs) ← readFraction cs
  let (offset, rest) ← readOffset cs
  let date : CivilDate := ⟨year, month, day⟩
  if rest = [] ∧ date.isValid ∧ hour < 24 ∧ minute < 60 ∧ second ≤ 60 then
    let leap := second = 60
    let ofDay : Int := hour * 3600 + minute * 60 + (if leap then 59 else second)
    some ⟨date.toDays * 86400 + ofDay - offset, nanos + if leap then 1000000000 else 0⟩
  else none

/-- A year: one to four digits, or a sign and any number of digits. -/
def readYear : Front Int
  | '-' :: r => (readNumber 1 r.length r).map fun p => (-(p.1 : Int), p.2)
  | '+' :: r => (readNumber 1 r.length r).map fun p => ((p.1 : Int), p.2)
  | cs => (readNumber 1 4 cs).map fun p => ((p.1 : Int), p.2)

/-- The instant at which a plain day starts. -/
def ofPlainDay? (cs : List Char) : Option Instant := do
  let (year, cs) ← readYear (Text.trimStart cs)
  let ((), cs) ← readChar (· = '-') cs
  let (month, cs) ← readNumber 1 2 (Text.trimStart cs)
  let ((), cs) ← readChar (· = '-') cs
  let (day, rest) ← readNumber 1 2 (Text.trimStart cs)
  let date : CivilDate := ⟨year, month, day⟩
  if rest = [] ∧ date.isValid then some ⟨date.toDays * 86400, 0⟩ else none

/-- The instant a text denotes, if it has one of the two forms. -/
def ofText? (text : String) : Option Instant :=
  (ofTimestamp? text.toList).or (ofPlainDay? text.toList)

end Instant

end ValueSchema

import ValueSchema.Double.Basic

/-!
# Reading doubles

`Double.ofText?` reads an optional sign followed by decimal digits with an
optional point, at least one digit in all, and an optional exponent; or by the
name of infinity or of what is not a number, in any case.  The number read is the
double nearest to the decimal, so a decimal beyond all finite doubles reads as
infinite.
-/

namespace ValueSchema

/-- The number that a list of decimal digits denotes. -/
def digitsToNat (ds : List Char) : Nat := ds.foldl (fun n c => 10 * n + (c.toNat - '0'.toNat)) 0

namespace Double

/-- The double nearest to `digits * 10 ^ exponent`.  Decimals far outside the range
of the finite doubles are decided by their number of digits. -/
def ofDecimal (negative : Bool) (digits : Nat) (exponent : Int) : Double :=
  let lead : Int := (Nat.toDigits 10 digits).length + exponent
  if digits = 0 then zero negative
  else if 309 < lead then infinity negative
  else if lead < -330 then zero negative
  else if 0 ≤ exponent then nearest negative (digits * Nat.pow 10 exponent.toNat) 1
  else nearest negative digits (Nat.pow 10 (-exponent).toNat)

/-- A sign and what follows it, negative exactly after a minus. -/
def splitSign : List Char → Bool × List Char
  | '-' :: r => (true, r)
  | '+' :: r => (false, r)
  | r => (false, r)

/-- The exponent that ends a number: nothing, or a letter and an integer. -/
def exponentOf? : List Char → Option Int
  | [] => some 0
  | c :: r =>
      let (negative, ds) := splitSign r
      if (c = 'e' ∨ c = 'E') ∧ ds ≠ [] ∧ ds.all Char.isDigit then
        some (if negative then -(digitsToNat ds : Int) else digitsToNat ds)
      else none

/-- An unsigned number of a given sign. -/
def ofUnsigned? (negative : Bool) (cs : List Char) : Option Double :=
  let whole := cs.takeWhile Char.isDigit
  let r := cs.dropWhile Char.isDigit
  let (part, r) := match r with
    | '.' :: r => (r.takeWhile Char.isDigit, r.dropWhile Char.isDigit)
    | r => ([], r)
  if whole = [] ∧ part = [] then none
  else (exponentOf? r).map fun e =>
    ofDecimal negative (digitsToNat (whole ++ part)) (e - part.length)

/-- The double a text denotes, if it is one number and nothing else. -/
def ofText? (text : String) : Option Double :=
  let (negative, cs) := splitSign text.toList
  let name := String.ofList (cs.map Char.toLower)
  if name = "inf" ∨ name = "infinity" then some (infinity negative)
  else if name = "nan" then some (nan negative)
  else ofUnsigned? negative cs

end Double

end ValueSchema

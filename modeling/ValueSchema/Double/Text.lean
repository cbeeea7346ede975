import ValueSchema.Double.Shortest

/-!
# Doubles as decimal text

A `Layout` says how the shortest decimal of a double is set out: where positional
notation ends and exponents begin, whether a whole number keeps one digit after
the point, and which of two equally near decimals is taken.  `jsonLayout` is the
layout of numbers in JSON text and `plainLayout` the one of numbers turned into
strings.
-/

namespace ValueSchema

namespace Double

/-- How the shortest decimal of a double is written. -/
structure Layout where
  /-- The positions of the point for which positional notation is used. -/
  positional : Int → Bool
  /-- Whether a whole number keeps a point and one zero. -/
  keepsFraction : Bool
  /-- Which of two equally near decimals is taken. -/
  tie : Tie

/-- JSON text is positional from `0.00001` up to below `10 ^ 16`, and every number
has a point or an exponent. -/
def jsonLayout : Layout := ⟨fun p => decide (-5 < p ∧ p ≤ 16), true, .even⟩

/-- Plain text is always positional, and whole numbers have no point. -/
def plainLayout : Layout := ⟨fun _ => true, false, .up⟩

/-- A decimal in positional notation. -/
def positionalText (keepsFraction : Bool) (d : Decimal) : String :=
  let digits := Nat.toDigits 10 d.digits
  let p := d.pointPosition
  if p ≤ 0 then "0." ++ String.ofList (List.replicate (-p).toNat '0' ++ digits)
  else if digits.length ≤ p.toNat then
    String.ofList (digits ++ List.replicate (p.toNat - digits.length) '0')
      ++ (if keepsFraction then ".0" else "")
  else String.ofList (digits.take p.toNat ++ '.' :: digits.drop p.toNat)

/-- A decimal with one digit before the point and an exponent with its sign. -/
def scientificText (d : Decimal) : String :=
  let digits := Nat.toDigits 10 d.digits
  let e := d.pointPosition - 1
  String.ofList (digits.take 1)
    ++ (if digits.length ≤ 1 then "" else "." ++ String.ofList (digits.drop 1))
    ++ (if e < 0 then "e-" else "e+") ++ toString e.natAbs

/-- A finite double in a layout. -/
def layoutText (layout : Layout) (x : Double) : String :=
  (if x.negative then "-" else "") ++
    if x.isZero then (if layout.keepsFraction then "0.0" else "0")
    else
      let d := x.shortest layout.tie
      if layout.positional d.pointPosition then positionalText layout.keepsFraction d
      else scientificText d

/-- The text of a double turned into a string. -/
def plainText (x : Double) : String :=
  if x.isNaN then "NaN"
  else if x.isFinite then layoutText plainLayout x
  else if x.negative then "-inf"
  else "inf"

/-- The number of digits after the point in the plain text. -/
def fractionDigits (x : Double) : Nat :=
  if x.isFinite && !x.isZero then (-(x.shortest plainLayout.tie).exponent).toNat else 0

end Double

end ValueSchema

/-!
# Double precision numbers

A `Double` is a binary floating point number of 64 bits: a sign and a magnitude
of 63 bits.  The upper eleven bits of the magnitude are the exponent field and
the lower fifty-two the fraction, so magnitudes are ordered as the absolute
values are, infinity lies above every finite magnitude, and the magnitudes
above infinity are not numbers.

Every operation works on whole numbers.  A finite double is
`significand * 2 ^ scale` with its sign, and a result that has to be rounded is
the double nearest to a quotient of two naturals (`Double.nearest`), of two
equally near ones the one with the even significand.

`order_swap` says that `Double.order` is a total order up to the sign of zero.
-/

namespace ValueSchema

/-- A double precision number: its sign and its magnitude. -/
structure Double where
  /-- The sign bit. -/
  negative : Bool
  /-- The exponent field and the fraction. -/
  magnitude : Nat
  /-- The magnitude has 63 bits. -/
  magnitude_lt : magnitude < 1 <<< 63
deriving DecidableEq, Repr

namespace Double

/-! ## Magnitudes -/

/-- The magnitude of infinity: the exponent field is full, the fraction empty. -/
def infiniteMagnitude : Nat := 2047 <<< 52

/-- The double of a sign and a magnitude.  A magnitude that does not fit is cut
to infinity. -/
def ofMagnitude (negative : Bool) (magnitude : Nat) : Double :=
  if h : magnitude < 1 <<< 63 then ⟨negative, magnitude, h⟩
  else ⟨negative, infiniteMagnitude, by decide⟩

/-- The zero of a sign. -/
def zero (negative : Bool) : Double := ⟨negative, 0, by decide⟩

/-- The infinity of a sign. -/
def infinity (negative : Bool) : Double := ⟨negative, infiniteMagnitude, by decide⟩

/-- The value that is not a number, of a sign. -/
def nan (negative : Bool) : Double := ⟨negative, infiniteMagnitude + (1 <<< 51), by decide⟩

instance : Inhabited Double := ⟨zero false⟩

/-- The 64 bits, sign first. -/
def bits (x : Double) : Nat := (if x.negative then 1 <<< 63 else 0) + x.magnitude

/-- Whether the double is not a number. -/
def isNaN (x : Double) : Bool := infiniteMagnitude < x.magnitude

/-- Whether the double is a number other than the infinities. -/
def isFinite (x : Double) : Bool := x.magnitude < infiniteMagnitude

/-- Whether the double is one of the two zeros. -/
def isZero (x : Double) : Bool := x.magnitude = 0

/-! ## Equality and order -/

/-- The number the order is read off: the magnitude with its sign. -/
def key (x : Double) : Int := if x.negative then -(x.magnitude : Int) else x.magnitude

/-- Numeric equality.  The zeros are equal, and what is not a number equals
nothing. -/
def equal (x y : Double) : Bool := !x.isNaN && !y.isNaN && (x == y || (x.isZero && y.isZero))

/-- The order of the numbers, with the zeros equal.  What is not a number lies
beyond the infinity of its sign. -/
def order (x y : Double) : Ordering := compare x.key y.key

theorem order_swap (x y : Double) : (x.order y).swap = y.order x := by
  rw [order, order, ← Std.OrientedOrd.eq_swap]

theorem order_self (x : Double) : x.order x = .eq := by
  simp [order]

/-! ## Exact values -/

/-- The exponent field. -/
def exponent (x : Double) : Nat := x.magnitude >>> 52

/-- The fraction. -/
def fraction (x : Double) : Nat := x.magnitude % (1 <<< 52)

/-- The whole number that the power of two scales, of a finite double. -/
def significand (x : Double) : Nat :=
  if x.exponent = 0 then x.fraction else (1 <<< 52) + x.fraction

/-- The power of two that scales the significand, counted up from `-1074`. -/
def scaleAbove (x : Double) : Nat := x.exponent - 1

/-- The absolute value times `2 ^ 1074`, of a finite double.  It is whole. -/
def units (x : Double) : Nat := x.significand <<< x.scaleAbove

/-- The number of units in one: `2 ^ 1074`. -/
def unitsPerOne : Nat := 1 <<< 1074

/-- Whether the double is a whole number.  The infinities are none. -/
def isIntegral (x : Double) : Bool := x.isFinite && x.units % unitsPerOne = 0

/-- The whole part of a finite double, its fraction cut off toward zero. -/
def whole (x : Double) : Int :=
  let n := x.units / unitsPerOne
  if x.negative then -(n : Int) else n

/-- The integer a double is, if it is one. -/
def toInt? (x : Double) : Option Int := if x.isIntegral then some x.whole else none

/-- The integer nearest below the absolute value, cut to the interval from `lo`
to `hi`.  Infinities go to its ends and what is not a number to zero. -/
def toIntWithin (lo hi : Int) (x : Double) : Int :=
  if x.isNaN then 0
  else if x.isFinite then max lo (min hi x.whole)
  else if x.negative then lo else hi

/-! ## Rounding -/

/-- The quotient rounded to the nearest whole number, a half to the even one. -/
def roundQuotient (num den : Nat) : Nat :=
  let q := num / den
  let r := num % den
  if den < 2 * r ∨ (2 * r = den ∧ q % 2 = 1) then q + 1 else q

/-- The power of two that leaves 53 binary digits before the point of
`num / den`, but at least `-1074`, counted up from `-1074`. -/
def scaleAboveOf (num den : Nat) : Nat :=
  let gap : Int := (num.log2 : Int) - den.log2
  let reaches : Bool :=
    if 0 ≤ gap then den <<< gap.toNat ≤ num else den ≤ num <<< (-gap).toNat
  ((if reaches then gap - 52 else gap - 53) + 1074).toNat

/-- The magnitude of the double nearest to `num / den`. -/
def nearestMagnitude (num den : Nat) : Nat :=
  if num = 0 then 0
  else
    let above := scaleAboveOf num den
    let m :=
      if 1074 ≤ above then roundQuotient num (den <<< (above - 1074))
      else roundQuotient (num <<< (1074 - above)) den
    min infiniteMagnitude ((above <<< 52) + m)

/-- The double nearest to `num / den` with a sign, of two equally near ones the
one with the even significand.  What lies half a step or more beyond the last
finite double is infinite. -/
def nearest (negative : Bool) (num den : Nat) : Double :=
  ofMagnitude negative (nearestMagnitude num den)

/-- The double nearest to an integer. -/
def ofInt (n : Int) : Double := nearest (decide (n < 0)) n.natAbs 1

/-- The double nearest to a natural number. -/
def ofNat (n : Nat) : Double := ofInt n

/-! ## Arithmetic -/

/-- The double with the other sign. -/
def neg (x : Double) : Double := { x with negative := !x.negative }

/-- The sum.  Opposite infinities have none, and the answer to what is not a
number is that operand. -/
def add (x y : Double) : Double :=
  if x.isNaN then x
  else if y.isNaN then y
  else if x.isFinite && y.isFinite then
    let a : Int := if x.negative then -(x.units : Int) else x.units
    let b : Int := if y.negative then -(y.units : Int) else y.units
    if a + b = 0 then zero (x.negative && y.negative)
    else nearest (decide (a + b < 0)) (a + b).natAbs unitsPerOne
  else if x.isFinite then y
  else if y.isFinite || x.negative == y.negative then x
  else nan true

/-- The quotient.  Zero by zero and infinity by infinity have none. -/
def div (x y : Double) : Double :=
  let negative := x.negative != y.negative
  if x.isNaN then x
  else if y.isNaN then y
  else if x.isFinite then
    if !y.isFinite then zero negative
    else if y.isZero then (if x.isZero then nan true else infinity negative)
    else nearest negative x.units y.units
  else if y.isFinite then infinity negative
  else nan true

/-- Whether a double is finite and closer than `tolerance` to a whole number.
The distance is a whole number of units, so the test is exact. -/
def isNearWhole (x tolerance : Double) : Bool :=
  let r := x.units % unitsPerOne
  x.isFinite && min r (unitsPerOne - r) < tolerance.units

/-! ## Tests -/

example : (nearest false 1 10).bits = 0x3fb999999999999a := by decide +kernel
example : nearest true (10 ^ 309) 1 = infinity true := by decide +kernel
example : (zero true).equal (zero false) = true := by decide

end Double

end ValueSchema

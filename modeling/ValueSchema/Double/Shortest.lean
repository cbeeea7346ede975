import ValueSchema.Double.Basic

/-!
# The shortest decimal of a double

`Double.shortest` finds the decimal with the fewest digits that is nearer to a
given double than to any other.  The decimals that read back as a double `x`
fill an interval around it: half a step to each side, the ends included exactly
when the significand of `x` is even.  Below a power of two the step is half as
wide.  On the grid of the decimals with `n` significant digits only the two
neighbours of `x` can be the nearest ones, so the first `n` whose grid has a
neighbour in the interval gives the fewest digits.  Seventeen digits always
suffice.

All comparisons are made in quarters of the last binary place of `x`, where `x`
and the ends of the interval are whole.
-/

namespace ValueSchema

/-- A positive decimal: `digits * 10 ^ exponent`. -/
structure Decimal where
  /-- The significant digits, read as one number. -/
  digits : Nat
  /-- The power of ten of the last digit. -/
  exponent : Int
deriving DecidableEq, Repr

namespace Decimal

/-- The number of decimal digits, one for zero. -/
def digitCount (n : Nat) : Nat := (Nat.toDigits 10 n).length

/-- The same decimal without trailing zeros, `fuel` of them at most. -/
def trim : Nat → Decimal → Decimal
  | 0, d => d
  | fuel + 1, d =>
      if d.digits % 10 = 0 ∧ d.digits ≠ 0 then trim fuel ⟨d.digits / 10, d.exponent + 1⟩ else d
termination_by structural fuel => fuel

/-- The number of digits before the decimal point in positional notation.  It is
zero or negative below one tenth. -/
def pointPosition (d : Decimal) : Int := digitCount d.digits + d.exponent

end Decimal

namespace Double

/-- Which of two equally near decimals is taken. -/
inductive Tie where
  /-- The one with the even last digit. -/
  | even
  /-- The larger one. -/
  | up
deriving DecidableEq, Repr

/-- The interval of the numbers that read back as a finite double, in quarters of
its last binary place. -/
structure Interval where
  /-- The lower end. -/
  low : Nat
  /-- The double itself. -/
  mid : Nat
  /-- The upper end. -/
  high : Nat
  /-- Whether the ends belong to the interval. -/
  closed : Bool
  /-- The power of two of a quarter, counted up from `-1076`. -/
  above : Nat

/-- The interval of a finite double. -/
def interval (x : Double) : Interval :=
  let m := 4 * x.significand
  { low := if x.fraction = 0 ∧ 1 < x.exponent then m - 1 else m - 2
    mid := m
    high := m + 2
    closed := x.significand % 2 = 0
    above := x.scaleAbove }

/-- The end of the decimal expansion at a power of ten: `mid / 10 ^ e` as the
fraction `numerator / denominator`, and a quarter on the same scale. -/
structure Grid where
  /-- The double over the unit of the grid, times `denominator`. -/
  numerator : Nat
  /-- The unit of the grid. -/
  denominator : Nat
  /-- What a quarter is multiplied by to be compared with grid points. -/
  quarter : Nat

/-- The grid of the multiples of `10 ^ e`, seen from an interval. -/
def Interval.grid (i : Interval) (e : Int) : Grid :=
  let two := if 1076 ≤ i.above then 1 <<< (i.above - 1076) else 1
  let half := if 1076 ≤ i.above then 1 else 1 <<< (1076 - i.above)
  let ten := if 0 ≤ e then Nat.pow 10 e.toNat else 1
  let tenth := if 0 ≤ e then 1 else Nat.pow 10 (-e).toNat
  { numerator := i.mid * (two * tenth), denominator := half * ten, quarter := two * tenth }

/-- Whether the grid point `n` lies in the interval. -/
def Interval.holds (i : Interval) (g : Grid) (n : Nat) : Bool :=
  let p := n * g.denominator
  if i.closed then i.low * g.quarter ≤ p && p ≤ i.high * g.quarter
  else i.low * g.quarter < p && p < i.high * g.quarter

/-- The grid point nearest to the double among the two neighbours that lie in the
interval. -/
def Interval.pick (i : Interval) (tie : Tie) (e : Int) : Option Decimal :=
  let g := i.grid e
  let n := g.numerator / g.denominator
  let r := g.numerator % g.denominator
  match i.holds g n && n ≠ 0, i.holds g (n + 1) with
  | true, false => some ⟨n, e⟩
  | false, true => some ⟨n + 1, e⟩
  | true, true =>
      let upper := match tie with
        | .even => g.denominator < 2 * r || (2 * r = g.denominator && n % 2 = 1)
        | .up => g.denominator ≤ 2 * r
      some ⟨if upper then n + 1 else n, e⟩
  | false, false => none

/-- The power of ten of the first significant digit of `num / den`, plus one. -/
def leadingPower (num den : Nat) : Int :=
  if den ≤ num then Decimal.digitCount (num / den)
  else
    let p := Decimal.digitCount (den / num)
    if den = num * Nat.pow 10 (p - 1) then 2 - (p : Int) else 1 - (p : Int)

/-- The first grid with a decimal of the interval, from `n` digits on. -/
def Interval.search (i : Interval) (tie : Tie) (lead : Int) : Nat → Nat → Decimal
  | 0, n => ⟨(i.grid (lead - n)).numerator / (i.grid (lead - n)).denominator, lead - n⟩
  | fuel + 1, n => (i.pick tie (lead - n)).getD (Interval.search i tie lead fuel (n + 1))
termination_by structural fuel => fuel

/-- The shortest decimal that reads back as a finite double other than zero. -/
def shortest (tie : Tie) (x : Double) : Decimal :=
  let i := x.interval
  let lead := leadingPower x.units unitsPerOne
  (i.search tie lead 17 1).trim 20

end Double

end ValueSchema

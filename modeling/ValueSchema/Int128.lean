/-!
# Integers of 128 bits

An `Int128` is an integer from `-2 ^ 127` up to below `2 ^ 127`.  The bounds are
part of the type.  `Int128.ofInt?` refuses an integer outside of them and
`Int128.clamp` goes to the nearest bound.
-/

namespace ValueSchema

/-- The least integer above those of 128 bits. -/
def Int128.bound : Int := 0x80000000000000000000000000000000

/-- The least integer above those of 64 bits. -/
def Int128.bound64 : Int := 0x8000000000000000

/-- An integer of 128 bits with a sign. -/
structure Int128 where
  /-- The integer. -/
  val : Int
  /-- It is not below the least one. -/
  min_le : -Int128.bound ≤ val
  /-- It is below the bound. -/
  lt_bound : val < Int128.bound
deriving DecidableEq, Repr

namespace Int128

/-- The integer `n`, if it fits. -/
def ofInt? (n : Int) : Option Int128 :=
  if h : -bound ≤ n ∧ n < bound then some ⟨n, h.1, h.2⟩ else none

/-- The integer nearest to `n` that fits. -/
def clamp (n : Int) : Int128 :=
  ⟨max (-bound) (min (bound - 1) n), by unfold bound; omega, by unfold bound; omega⟩

/-- The value of a truth value: one for true. -/
def ofBool (b : Bool) : Int128 := clamp (if b then 1 else 0)

/-- Whether the integer also fits 64 bits with a sign. -/
def fits64 (n : Int128) : Bool := decide (-bound64 ≤ n.val ∧ n.val < bound64)

/-- An optional sign and decimal digits, at least one. -/
def ofDigits? (cs : List Char) : Option Int :=
  let (negative, ds) := match cs with
    | '-' :: r => (true, r)
    | '+' :: r => (false, r)
    | r => (false, r)
  if ds ≠ [] ∧ ds.all Char.isDigit then
    let n : Nat := ds.foldl (fun n c => 10 * n + (c.toNat - '0'.toNat)) 0
    some (if negative then -(n : Int) else n)
  else none

/-- The integer that a decimal text denotes, if it is one and fits. -/
def ofText? (text : String) : Option Int128 := (ofDigits? text.toList).bind ofInt?

theorem ofInt?_val (n : Int128) : ofInt? n.val = some n :=
  dif_pos ⟨n.min_le, n.lt_bound⟩

theorem ofInt?_eq_some_iff {n : Int} {m : Int128} : ofInt? n = some m ↔ m.val = n := by
  constructor
  · intro h
    unfold ofInt? at h
    split at h
    · cases h; rfl
    · cases h
  · rintro rfl
    exact ofInt?_val m

example : (ofText? "-12").map Int128.val = some (-12) := by decide +kernel
example : ofText? (toString bound) = none := by decide +kernel
example : (ofText? "+007").map Int128.val = some 7 := by decide +kernel
example : ofText? "" = none := by decide +kernel

end Int128

end ValueSchema

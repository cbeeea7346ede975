/-!
# Hexadecimal numbers

`Text.hexDigit?` reads one hexadecimal digit and `Text.hexNumber?` a number of any
length, both in either case.
-/

namespace ValueSchema

namespace Text

/-- The value of a hexadecimal digit. -/
def hexDigit? (c : Char) : Option Nat :=
  if '0' ≤ c ∧ c ≤ '9' then some (c.toNat - '0'.toNat)
  else if 'a' ≤ c ∧ c ≤ 'f' then some (c.toNat - 'a'.toNat + 10)
  else if 'A' ≤ c ∧ c ≤ 'F' then some (c.toNat - 'A'.toNat + 10)
  else none

/-- The value of a text of hexadecimal digits, at least one. -/
def hexNumber? (cs : List Char) : Option Nat :=
  if cs.isEmpty then none
  else cs.foldlM (fun n c => (hexDigit? c).map (16 * n + ·)) 0

/-- A hexadecimal digit is below sixteen. -/
theorem lt_of_hexDigit?_eq_some {c : Char} {n : Nat} (h : hexDigit? c = some n) : n < 16 := by
  simp only [hexDigit?, Char.le_def, UInt32.le_iff_toNat_le] at h
  split at h
  · next hc =>
      have := hc.2
      simp only [Option.some.injEq, Char.toNat] at *
      have : '9'.val.toNat = 57 := rfl
      have : '0'.val.toNat = 48 := rfl
      omega
  · split at h
    · next hc =>
        have := hc.2
        simp only [Option.some.injEq, Char.toNat] at *
        have : 'f'.val.toNat = 102 := rfl
        have : 'a'.val.toNat = 97 := rfl
        omega
    · split at h
      · next hc =>
          have := hc.2
          simp only [Option.some.injEq, Char.toNat] at *
          have : 'F'.val.toNat = 70 := rfl
          have : 'A'.val.toNat = 65 := rfl
          omega
      · exact absurd h (by simp)

example : hexNumber? ['1', 'f', 'F'] = some 511 := by decide +kernel
example : hexNumber? ['1', 'g'] = none := by decide +kernel

end Text

end ValueSchema

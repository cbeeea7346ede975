import Mathlib.Data.List.TakeWhile
import Mathlib.Tactic.Ring
import ValueSchema.Double.Reader

/-!
# Lists of digits

The number that a list of digits denotes (`digitsToNat`) is put together from those of its two parts
(`digitsToNat_append`), and a number is denoted by its own digits (`digitsToNat_toDigits`).  Digits
in front of something else are found as the longest front of digits (`AllDigits.takeWhile`).
-/

namespace ValueSchema

/-- A list of digits. -/
def AllDigits (cs : List Char) : Prop := ∀ c ∈ cs, c.isDigit = true

namespace AllDigits

variable {as bs rest : List Char}

theorem append (ha : AllDigits as) (hb : AllDigits bs) : AllDigits (as ++ bs) :=
  List.forall_mem_append.mpr ⟨ha, hb⟩

theorem zeros (k : Nat) : AllDigits (List.replicate k '0') := by
  intro c hc
  rw [List.eq_of_mem_replicate hc]
  rfl

theorem toDigits (n : Nat) : AllDigits (Nat.toDigits 10 n) :=
  fun _ hc => Nat.isDigit_of_mem_toDigits (by decide) (by decide) hc

/-- Digits are read until something else follows. -/
theorem takeWhile (ha : AllDigits as) (hrest : ∀ c, rest.head? = some c → c.isDigit = false) :
    (as ++ rest).takeWhile Char.isDigit = as ∧ (as ++ rest).dropWhile Char.isDigit = rest := by
  rw [List.takeWhile_append_of_pos ha, List.dropWhile_append_of_pos ha]
  cases rest with
  | nil => exact ⟨List.append_nil as, rfl⟩
  | cons c rest =>
      rw [List.takeWhile_cons, List.dropWhile_cons, hrest c rfl]
      exact ⟨List.append_nil as, rfl⟩

end AllDigits

/-- Digits in front count as often as the power of ten of the number of those behind them. -/
theorem foldl_digits_from (ds : List Char) (n : Nat) :
    ds.foldl (fun n c => 10 * n + (c.toNat - '0'.toNat)) n =
      n * 10 ^ ds.length + digitsToNat ds := by
  induction ds generalizing n with
  | nil => simp [digitsToNat]
  | cons c ds ih =>
      rw [digitsToNat, List.foldl_cons, List.foldl_cons, ih, ih (10 * 0 + _), List.length_cons,
        pow_succ]
      ring

theorem digitsToNat_append (as bs : List Char) :
    digitsToNat (as ++ bs) = digitsToNat as * 10 ^ bs.length + digitsToNat bs := by
  rw [digitsToNat, List.foldl_append]
  exact foldl_digits_from bs _

theorem digitsToNat_zeros (k : Nat) : digitsToNat (List.replicate k '0') = 0 := by
  induction k with
  | zero => rfl
  | succ k ih => exact ih

theorem digitsToNat_toDigits (n : Nat) : digitsToNat (Nat.toDigits 10 n) = n :=
  Nat.ofDigitChars_ten_toDigits

end ValueSchema

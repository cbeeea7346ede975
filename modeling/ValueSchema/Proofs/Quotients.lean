import Mathlib.Tactic.Ring
import ValueSchema.Proofs.Rounding

/-!
# Rounding of quotients

A quotient of two natural numbers is rounded to 53 binary digits.  `Double.Rounds` says so in whole
numbers: the double is a multiple of a step of its units, at most half a step away from the
quotient, and the quotient has 53 digits before the point when it is counted in steps.
`Double.nearest_rounds` shows this for quotients of a normal size, which are neither so small that
digits are lost nor so large that they leave the finite doubles.
-/

namespace ValueSchema

namespace Double

/-! ## The scale of a quotient -/

section Scale

variable {num den : Nat}

theorem mul_pow_le_iff {a b c d : Nat} (k : Nat) :
    a * 2 ^ c ≤ b * 2 ^ d ↔ a * 2 ^ (c + k) ≤ b * 2 ^ (d + k) := by
  rw [pow_add, pow_add, ← mul_assoc, ← mul_assoc]
  exact (Nat.mul_le_mul_right_iff (Nat.two_pow_pos k)).symm

theorem mul_pow_lt_iff {a b c d : Nat} (k : Nat) :
    a * 2 ^ c < b * 2 ^ d ↔ a * 2 ^ (c + k) < b * 2 ^ (d + k) := by
  rw [← Nat.not_le, ← Nat.not_le, not_congr (mul_pow_le_iff k)]

theorem lt_of_mul_pow_lt {a c d : Nat} (h : a * 2 ^ c < a * 2 ^ d) : c < d :=
  (Nat.pow_lt_pow_iff_right (by decide)).mp (Nat.lt_of_mul_lt_mul_left h)

/-- The scale is read off the binary lengths of the two numbers, and off which of them is greater
when both have one length. -/
theorem scaleAboveOf_eq (num den : Nat) :
    scaleAboveOf num den =
      if den * 2 ^ num.log2 ≤ num * 2 ^ den.log2 then num.log2 + 1022 - den.log2
      else num.log2 + 1021 - den.log2 := by
  have hreaches : (if 0 ≤ ((num.log2 : Int) - den.log2)
      then decide (den <<< ((num.log2 : Int) - den.log2).toNat ≤ num)
      else decide (den ≤ num <<< (-((num.log2 : Int) - den.log2)).toNat)) =
      decide (den * 2 ^ num.log2 ≤ num * 2 ^ den.log2) := by
    split
    next hgap =>
        have hlog : (((num.log2 : Int) - den.log2).toNat + den.log2) = num.log2 := by omega
        have hscaled := mul_pow_le_iff (a := den) (b := num) (c := ((num.log2 : Int) - den.log2).toNat)
          (d := 0) den.log2
        rw [pow_zero, mul_one, hlog, zero_add] at hscaled
        rw [Nat.shiftLeft_eq]
        exact decide_eq_decide.mpr hscaled
    next hgap =>
        have hlog : ((-((num.log2 : Int) - den.log2)).toNat + num.log2) = den.log2 := by omega
        have hscaled := mul_pow_le_iff (a := den) (b := num) (c := 0)
          (d := (-((num.log2 : Int) - den.log2)).toNat) num.log2
        rw [pow_zero, mul_one, hlog, zero_add] at hscaled
        rw [Nat.shiftLeft_eq]
        exact decide_eq_decide.mpr hscaled
  unfold scaleAboveOf
  dsimp only
  rw [hreaches]
  by_cases h : den * 2 ^ num.log2 ≤ num * 2 ^ den.log2
  · rw [decide_eq_true h, if_pos rfl, if_pos h]
    omega
  · rw [decide_eq_false h, if_neg Bool.false_ne_true, if_neg h]
    omega

/-- The scale counts the binary digits of a quotient that is not too small. -/
theorem scaleAboveOf_spec (hnum : num ≠ 0) (hden : den ≠ 0) (hsize : den ≤ num * 2 ^ 1022) :
    den * 2 ^ scaleAboveOf num den ≤ num * 2 ^ 1022 ∧
      num * 2 ^ 1022 < den * 2 ^ (scaleAboveOf num den + 1) := by
  have hbelow : den * 2 ^ num.log2 ≤ num * 2 ^ (den.log2 + 1) := by
    rw [mul_comm num]
    exact Nat.mul_le_mul lt_pow_log2.le (pow_log2_le hnum)
  have habove : num * 2 ^ den.log2 < den * 2 ^ (num.log2 + 1) := by
    rw [mul_comm den]
    exact Nat.mul_lt_mul_of_lt_of_le lt_pow_log2 (pow_log2_le hden) (Nat.pos_of_ne_zero hden)
  -- The quotient is large enough for the scale not to be cut off.
  have hlog {k : Nat} (h : num * 2 ^ den.log2 < den * 2 ^ k) : den.log2 < 1022 + k := by
    refine lt_of_mul_pow_lt (a := num) ?_
    rw [pow_add, ← mul_assoc]
    exact h.trans_le (Nat.mul_le_mul_right _ hsize)
  rw [scaleAboveOf_eq]
  split
  next hreaches =>
      have hscale : num.log2 + 1022 - den.log2 + den.log2 = num.log2 + 1022 := by
        have hcut := hlog habove
        omega
      constructor
      · rw [mul_pow_le_iff den.log2, hscale, add_comm 1022]
        exact (mul_pow_le_iff 1022).mp hreaches
      · rw [mul_pow_lt_iff den.log2, add_right_comm, hscale, add_comm 1022, add_right_comm]
        exact (mul_pow_lt_iff 1022).mp habove
  next hless =>
      have hless : num * 2 ^ den.log2 < den * 2 ^ num.log2 := Nat.lt_of_not_le hless
      have hscale : num.log2 + 1021 - den.log2 + den.log2 = num.log2 + 1021 := by
        have hcut := hlog hless
        omega
      constructor
      · rw [mul_pow_le_iff den.log2, hscale, show 1022 + den.log2 = den.log2 + 1 + 1021 by omega]
        exact (mul_pow_le_iff 1021).mp hbelow
      · rw [mul_pow_lt_iff den.log2, add_right_comm, hscale, add_comm 1022]
        exact (mul_pow_lt_iff 1022).mp hless

end Scale

/-! ## The digits of a quotient -/

/-- Rounding moves a quotient by at most a half. -/
theorem roundQuotient_near (n : Nat) {d : Nat} (hd : 0 < d) :
    2 * n ≤ 2 * (roundQuotient n d * d) + d ∧ 2 * (roundQuotient n d * d) ≤ 2 * n + d := by
  have hn := Nat.div_add_mod n d
  have hr := Nat.mod_lt n hd
  unfold roundQuotient
  dsimp only
  split
  next hup =>
      rw [add_mul, one_mul, mul_comm (n / d)]
      omega
  next hdown =>
      rw [mul_comm (n / d)]
      omega

theorem unitsPerOne_eq : unitsPerOne = 2 ^ 1074 := by
  have hshift : ∀ k, 1 <<< k = 2 ^ k := Nat.one_shiftLeft
  exact hshift _

theorem unitsPerOne_pos : 0 < unitsPerOne := by
  rw [unitsPerOne_eq]
  positivity

/-- The digits of a quotient at a scale: its scaled numerator by its scaled denominator. -/
def digits (num den above : Nat) : Nat :=
  if 1074 ≤ above then roundQuotient num (den <<< (above - 1074))
  else roundQuotient (num <<< (1074 - above)) den

theorem digits_eq (num den above : Nat) :
    ∃ n d c, digits num den above = roundQuotient n d ∧ 0 < c ∧ n * c = num * unitsPerOne ∧
      d * c = den * 2 ^ above := by
  unfold digits
  split
  next h =>
      refine ⟨num, den <<< (above - 1074), unitsPerOne, rfl, unitsPerOne_pos, rfl, ?_⟩
      rw [Nat.shiftLeft_eq, unitsPerOne_eq, mul_assoc, ← pow_add, Nat.sub_add_cancel h]
  next h =>
      refine ⟨num <<< (1074 - above), den, 2 ^ above, rfl, Nat.two_pow_pos above, ?_, rfl⟩
      rw [Nat.shiftLeft_eq, unitsPerOne_eq, mul_assoc, ← pow_add,
        Nat.sub_add_cancel (Nat.le_of_not_le h)]

/-- At the scale of the quotient there are 53 digits, or the first number of 54.  They are at most
half a step away from the quotient. -/
theorem digits_spec {num den above : Nat} (hden : 0 < den)
    (hlo : den * 2 ^ above ≤ num * 2 ^ 1022) (hhi : num * 2 ^ 1022 < den * 2 ^ (above + 1)) :
    2 ^ 52 ≤ digits num den above ∧ digits num den above ≤ 2 ^ 53 ∧
      2 * (num * unitsPerOne) ≤ 2 * (digits num den above * (den * 2 ^ above)) + den * 2 ^ above ∧
      2 * (digits num den above * (den * 2 ^ above)) ≤
        2 * (num * unitsPerOne) + den * 2 ^ above := by
  obtain ⟨n, d, c, hdigits, hc, hn, hd⟩ := digits_eq num den above
  have hpos : 0 < d := Nat.pos_of_mul_pos_right (hd ▸ Nat.mul_pos hden (Nat.two_pow_pos above))
  have hunits : num * unitsPerOne = num * 2 ^ 1022 * 2 ^ 52 := by
    rw [unitsPerOne_eq, mul_assoc, ← pow_add]
  have hbounds : 2 ^ 52 * d ≤ n ∧ n < 2 ^ 53 * d := by
    constructor
    · refine Nat.le_of_mul_le_mul_right ?_ hc
      rw [mul_assoc, hd, hn, hunits, mul_comm]
      exact Nat.mul_le_mul_right _ hlo
    · refine Nat.lt_of_mul_lt_mul_right (a := c) ?_
      rw [mul_assoc, hd, hn, hunits, mul_comm (2 ^ 53), show (53 : Nat) = 1 + 52 from rfl, pow_add,
        ← mul_assoc, mul_assoc den, ← pow_add]
      exact Nat.mul_lt_mul_of_pos_right hhi (Nat.two_pow_pos 52)
  obtain ⟨hmlo, hmhi⟩ := roundQuotient_bounds hpos hbounds.1 hbounds.2
  obtain ⟨hlow, hhigh⟩ := roundQuotient_near n hpos
  rw [hdigits, ← hn, ← hd]
  refine ⟨hmlo, hmhi, ?_, ?_⟩
  · calc 2 * (n * c) = 2 * n * c := (mul_assoc ..).symm
      _ ≤ (2 * (roundQuotient n d * d) + d) * c := Nat.mul_le_mul_right c hlow
      _ = 2 * (roundQuotient n d * (d * c)) + d * c := by ring
  · calc 2 * (roundQuotient n d * (d * c)) = 2 * (roundQuotient n d * d) * c := by ring
      _ ≤ (2 * n + d) * c := Nat.mul_le_mul_right c hhigh
      _ = 2 * (n * c) + d * c := by ring

/-! ## The double of a quotient -/

/-- The units of the double with given digits at a scale.  The first number of 54 digits belongs to
the next scale. -/
theorem units_of_digits {x : Double} {above m : Nat} (hx : x.magnitude = above * 2 ^ 52 + m)
    (hlo : 2 ^ 52 ≤ m) (hhi : m ≤ 2 ^ 53) : x.units = m * 2 ^ above := by
  rw [units, significand, scaleAbove, exponent, fraction, hx, Nat.shiftLeft_eq,
    Nat.shiftRight_eq_div_pow, Nat.one_shiftLeft]
  rcases hhi.lt_or_eq with hlt | heq
  · have hexponent : (above * 2 ^ 52 + m) / 2 ^ 52 = above + 1 := by omega
    have hfraction : 2 ^ 52 + (above * 2 ^ 52 + m) % 2 ^ 52 = m := by omega
    rw [hexponent, if_neg (Nat.succ_ne_zero above), hfraction, Nat.add_sub_cancel]
  · have hexponent : (above * 2 ^ 52 + m) / 2 ^ 52 = above + 1 + 1 := by omega
    have hfraction : 2 ^ 52 + (above * 2 ^ 52 + m) % 2 ^ 52 = 2 ^ 52 := by omega
    rw [hexponent, if_neg (Nat.succ_ne_zero _), hfraction, Nat.add_sub_cancel, heq, pow_succ 2 above]
    omega

/-- What rounding a quotient to a multiple of a step of units amounts to. -/
structure Rounds (num den step : Nat) (x : Double) : Prop where
  /-- The double is finite. -/
  finite : x.isFinite = true
  /-- It is a multiple of the step. -/
  step_dvd : step ∣ x.units
  /-- It is at most half a step below the quotient. -/
  low : 2 * (num * unitsPerOne) ≤ 2 * (x.units * den) + step * den
  /-- It is at most half a step above the quotient. -/
  high : 2 * (x.units * den) ≤ 2 * (num * unitsPerOne) + step * den
  /-- The quotient has not fewer than 53 digits. -/
  digits_low : 2 ^ 52 * (step * den) ≤ num * unitsPerOne
  /-- The quotient has not more than 53 digits. -/
  digits_high : num * unitsPerOne < 2 ^ 53 * (step * den)

theorem magnitude_nearest (negative : Bool) (num den : Nat) :
    (nearest negative num den).magnitude = nearestMagnitude num den := by
  have hbits : nearestMagnitude num den < 1 <<< 63 :=
    (nearestMagnitude_le_infinite num den).trans_lt (by decide)
  rw [nearest, ofMagnitude, dif_pos hbits]

/-- A quotient of a normal size is rounded to 53 digits. -/
theorem nearest_rounds (negative : Bool) {num den : Nat} (hnum : num ≠ 0) (hden : den ≠ 0)
    (hsmall : den ≤ num * 2 ^ 1022) (hlarge : num < den * 2 ^ 1023) :
    (nearest negative num den).Rounds num den (2 ^ scaleAboveOf num den) := by
  obtain ⟨hlo, hhi⟩ := scaleAboveOf_spec hnum hden hsmall
  have hfits : scaleAboveOf num den < 2045 := by
    refine lt_of_mul_pow_lt (a := den) ?_
    rw [show 2045 = 1023 + 1022 from rfl, pow_add, ← mul_assoc]
    exact hlo.trans_lt (Nat.mul_lt_mul_of_pos_right hlarge (by positivity))
  obtain ⟨hmlo, hmhi, hlow, hhigh⟩ := digits_spec (Nat.pos_of_ne_zero hden) hlo hhi
  have hfinite : (scaleAboveOf num den <<< 52) + digits num den (scaleAboveOf num den) <
      infiniteMagnitude := by
    rw [Nat.shiftLeft_eq, infiniteMagnitude]
    omega
  have hmagnitude : (nearest negative num den).magnitude =
      (scaleAboveOf num den <<< 52) + digits num den (scaleAboveOf num den) := by
    rw [magnitude_nearest, nearestMagnitude, if_neg hnum]
    exact Nat.min_eq_right hfinite.le
  have hunits := units_of_digits (Nat.shiftLeft_eq .. ▸ hmagnitude) hmlo hmhi
  have hone : num * unitsPerOne = num * 2 ^ 1022 * 2 ^ 52 := by
    rw [unitsPerOne_eq, mul_assoc, ← pow_add]
  refine ⟨?_, ?_, ?_, ?_, ?_, ?_⟩
  · rw [isFinite, hmagnitude]
    exact decide_eq_true hfinite
  · rw [hunits]
    exact Nat.dvd_mul_left ..
  · rw [hunits]
    calc _ ≤ _ := hlow
      _ = _ := by ring
  · rw [hunits]
    calc _ = _ := by ring
      _ ≤ _ := hhigh
      _ = _ := by ring
  · rw [hone, mul_comm, mul_comm (2 ^ _)]
    exact Nat.mul_le_mul_right _ hlo
  · rw [hone]
    calc num * 2 ^ 1022 * 2 ^ 52 < den * 2 ^ (scaleAboveOf num den + 1) * 2 ^ 52 :=
          Nat.mul_lt_mul_of_pos_right hhi (Nat.two_pow_pos 52)
      _ = 2 ^ 53 * (2 ^ scaleAboveOf num den * den) := by ring

end Double

end ValueSchema

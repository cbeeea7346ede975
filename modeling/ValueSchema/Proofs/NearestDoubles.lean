import ValueSchema.Double.Shortest
import ValueSchema.Proofs.Magnitudes

/-!
# The numbers that a double is nearest to

The interval of a double (`Double.interval`) is counted in quarters of its last binary place.
`Interval.Contains` says of an exact number that it lies there.  A quotient in the interval of a
double rounds to that double (`Double.nearest_of_contains`): it has the scale of the double, or else
the double is the first one of its scale and the quotient has the scale below.
-/

namespace ValueSchema

namespace Double

/-! ## The scale of any quotient -/

section Scale

variable {num den : Nat}

/-- Quotients that are too small for 53 digits have the least scale. -/
theorem scaleAboveOf_of_small (hnum : num ≠ 0) (h : num * 2 ^ 1022 < den) :
    scaleAboveOf num den = 0 := by
  have hlog : num.log2 + 1022 < den.log2 + 1 := by
    refine (Nat.pow_lt_pow_iff_right (a := 2) (by decide)).mp ?_
    calc 2 ^ (num.log2 + 1022) = 2 ^ num.log2 * 2 ^ 1022 := pow_add ..
      _ ≤ num * 2 ^ 1022 := Nat.mul_le_mul_right _ (pow_log2_le hnum)
      _ < den := h
      _ < 2 ^ (den.log2 + 1) := lt_pow_log2
  rw [scaleAboveOf_eq]
  split <;> omega

/-- A quotient has at most 53 digits at its scale, and fewer only at the least scale. -/
theorem scaleAboveOf_bounds (hnum : num ≠ 0) (hden : den ≠ 0) :
    num * unitsPerOne < 2 ^ 53 * (den * 2 ^ scaleAboveOf num den) ∧
      (scaleAboveOf num den = 0 ∨
        2 ^ 52 * (den * 2 ^ scaleAboveOf num den) ≤ num * unitsPerOne) := by
  have hone : num * unitsPerOne = num * 2 ^ 1022 * 2 ^ 52 := by
    rw [unitsPerOne_eq, mul_assoc, ← pow_add]
  rw [hone]
  rcases Nat.lt_or_ge (num * 2 ^ 1022) den with hless | hsize
  · rw [scaleAboveOf_of_small hnum hless]
    generalize num * 2 ^ 1022 = scaled at *
    omega
  · obtain ⟨hlo, hhi⟩ := scaleAboveOf_spec hnum hden hsize
    rw [pow_succ 2 (scaleAboveOf num den), ← mul_assoc] at hhi
    generalize num * 2 ^ 1022 = scaled at *
    omega

end Scale

/-! ## Rounding inside an interval -/

/-- A quotient is rounded to a number that it is at most a half away from, to an even one also when
it is exactly a half away. -/
theorem roundQuotient_eq {n d m : Nat} (hd : 0 < d) (hlow : 2 * (m * d) ≤ 2 * n + d)
    (hhigh : 2 * n ≤ 2 * (m * d) + d)
    (htie : m % 2 = 1 → 2 * (m * d) < 2 * n + d ∧ 2 * n < 2 * (m * d) + d) :
    roundQuotient n d = m := by
  have hn := Nat.div_add_mod n d
  have hr := Nat.mod_lt n hd
  rw [mul_comm] at hn
  unfold roundQuotient
  dsimp only
  rcases Nat.lt_trichotomy (n / d) m with hless | heq | hgreater
  · have hnext : n / d + 1 = m := by
      by_contra hne
      have hmul : (n / d + 2) * d ≤ m * d := Nat.mul_le_mul_right d (by omega)
      rw [add_mul] at hmul
      omega
    have hmul : m * d = n / d * d + d := by rw [← hnext, add_mul, one_mul]
    rw [if_pos (by omega)]
    exact hnext
  · rw [heq] at hn
    rw [if_neg (by omega)]
    exact heq
  · have hmul : (m + 1) * d ≤ n / d * d := Nat.mul_le_mul_right d hgreater
    rw [add_mul] at hmul
    omega

/-- A number lies in the interval. -/
def Interval.Contains (i : Interval) (q : ℚ) : Prop :=
  if i.closed then i.low * 2 ^ ((i.above : ℤ) - 1076) ≤ q ∧ q ≤ i.high * 2 ^ ((i.above : ℤ) - 1076)
  else i.low * 2 ^ ((i.above : ℤ) - 1076) < q ∧ q < i.high * 2 ^ ((i.above : ℤ) - 1076)

theorem quarter_eq (above : Nat) :
    (2 : ℚ) ^ ((above : ℤ) - 1076) = ((2 ^ above : Nat) : ℚ) / ((4 * unitsPerOne : Nat) : ℚ) := by
  have hone : 4 * unitsPerOne = 2 ^ 1076 := by
    rw [unitsPerOne_eq, show 1076 = 2 + 1074 from rfl, pow_add]
    norm_num
  rw [hone, zpow_sub₀ two_ne_zero, zpow_natCast, Nat.cast_pow, Nat.cast_pow, Nat.cast_two]
  rfl

/-- A quotient lies in the interval by its number of quarters. -/
theorem Interval.contains_div_iff {i : Interval} {num den : Nat} (hden : 0 < den) :
    i.Contains ((num : ℚ) / den) ↔
      if i.closed then i.low * (den * 2 ^ i.above) ≤ 4 * (num * unitsPerOne) ∧
        4 * (num * unitsPerOne) ≤ i.high * (den * 2 ^ i.above)
      else i.low * (den * 2 ^ i.above) < 4 * (num * unitsPerOne) ∧
        4 * (num * unitsPerOne) < i.high * (den * 2 ^ i.above) := by
  have hdenominator : (0 : ℚ) < den := Nat.cast_pos.mpr hden
  have hone : (0 : ℚ) < ((4 * unitsPerOne : Nat) : ℚ) :=
    Nat.cast_pos.mpr (Nat.mul_pos (by decide) unitsPerOne_pos)
  have hle (k : Nat) : (k : ℚ) * 2 ^ ((i.above : ℤ) - 1076) ≤ num / den ↔
      k * (den * 2 ^ i.above) ≤ 4 * (num * unitsPerOne) := by
    rw [quarter_eq, ← mul_div_assoc, div_le_div_iff₀ hone hdenominator, ← Nat.cast_mul,
      ← Nat.cast_mul, ← Nat.cast_mul, Nat.cast_le]
    rw [show k * 2 ^ i.above * den = k * (den * 2 ^ i.above) by ring,
      show num * (4 * unitsPerOne) = 4 * (num * unitsPerOne) by ring]
  have hge (k : Nat) : (num : ℚ) / den ≤ k * 2 ^ ((i.above : ℤ) - 1076) ↔
      4 * (num * unitsPerOne) ≤ k * (den * 2 ^ i.above) := by
    rw [quarter_eq, ← mul_div_assoc, div_le_div_iff₀ hdenominator hone, ← Nat.cast_mul,
      ← Nat.cast_mul, ← Nat.cast_mul, Nat.cast_le]
    rw [show k * 2 ^ i.above * den = k * (den * 2 ^ i.above) by ring,
      show num * (4 * unitsPerOne) = 4 * (num * unitsPerOne) by ring]
  unfold Contains
  split
  next => rw [hle, hge]
  next => rw [← not_le, ← not_le, hge, hle, not_le, not_le]

section Nearest

variable {x : Double} {num den : Nat}

/-- The lower end of the interval is a quarter of a place below the first double of a scale and half
a place below any other double. -/
theorem interval_low (x : Double) : 4 * x.significand - 2 ≤ x.interval.low ∧
    (x.scaleAbove ≠ 0 → x.significand = 2 ^ 52 → x.interval.low = 4 * x.significand - 1) := by
  have hfraction := x.fraction_lt
  have hlow : x.interval.low = if x.fraction = 0 ∧ 1 < x.exponent then 4 * x.significand - 1
      else 4 * x.significand - 2 := rfl
  rw [hlow]
  constructor
  · split <;> omega
  · intro hscale hfirst
    have hcondition : x.fraction = 0 ∧ 1 < x.exponent := by
      rw [significand, Nat.one_shiftLeft] at hfirst
      rw [scaleAbove] at hscale
      split at hfirst <;> omega
    exact if_pos hcondition

/-- A quotient in the interval of a double has its scale, or the scale below when the double is the
first one of its scale. -/
theorem scaleAboveOf_of_contains (hnum : num ≠ 0) (hden : 0 < den)
    (h : x.interval.Contains ((num : ℚ) / den)) :
    scaleAboveOf num den = x.scaleAbove ∨
      scaleAboveOf num den + 1 = x.scaleAbove ∧ x.significand = 2 ^ 52 := by
  obtain ⟨hhi, hlo⟩ := scaleAboveOf_bounds hnum hden.ne'
  obtain ⟨hlow, hfirst⟩ := x.interval_low
  have hsignificand := x.significand_lt
  have hscale := x.scaleAbove_eq_zero_or
  have hunit : 0 < den * 2 ^ x.scaleAbove := Nat.mul_pos hden (Nat.two_pow_pos _)
  -- The ends of the interval, whether they belong to it or not.
  have hends : x.interval.low * (den * 2 ^ x.scaleAbove) ≤ 4 * (num * unitsPerOne) ∧
      4 * (num * unitsPerOne) ≤ (4 * x.significand + 2) * (den * 2 ^ x.scaleAbove) := by
    have hinside := (Interval.contains_div_iff hden).mp h
    split at hinside
    · exact hinside
    · exact ⟨hinside.1.le, hinside.2.le⟩
  rcases Nat.lt_trichotomy (scaleAboveOf num den) x.scaleAbove with hless | heq | hgreater
  · right
    have hnormal : 2 ^ 52 ≤ x.significand := hscale.resolve_left (by omega)
    have hstep : den * 2 ^ scaleAboveOf num den * 2 ≤ den * 2 ^ x.scaleAbove := by
      rw [mul_assoc, ← pow_succ]
      exact Nat.mul_le_mul_left den (Nat.pow_le_pow_right Nat.two_pos hless)
    have hsmall : x.significand = 2 ^ 52 := by
      by_contra hne
      have hmul : (2 ^ 54 + 2) * (den * 2 ^ x.scaleAbove) ≤
          x.interval.low * (den * 2 ^ x.scaleAbove) := Nat.mul_le_mul_right _ (by omega)
      omega
    refine ⟨?_, hsmall⟩
    by_contra hne
    have hstep : den * 2 ^ scaleAboveOf num den * 2 ^ 2 ≤ den * 2 ^ x.scaleAbove := by
      rw [mul_assoc, ← pow_add]
      exact Nat.mul_le_mul_left den (Nat.pow_le_pow_right Nat.two_pos (by omega))
    have hmul : (2 ^ 54 - 2) * (den * 2 ^ x.scaleAbove) ≤
        x.interval.low * (den * 2 ^ x.scaleAbove) := Nat.mul_le_mul_right _ (by omega)
    omega
  · exact .inl heq
  · have hstep : den * 2 ^ x.scaleAbove * 2 ≤ den * 2 ^ scaleAboveOf num den := by
      rw [mul_assoc, ← pow_succ]
      exact Nat.mul_le_mul_left den (Nat.pow_le_pow_right Nat.two_pos hgreater)
    have hmul : (4 * x.significand + 2) * (den * 2 ^ x.scaleAbove) ≤
        (2 ^ 55 - 2) * (den * 2 ^ x.scaleAbove) := Nat.mul_le_mul_right _ (by omega)
    have hlarge := hlo.resolve_left (by omega)
    omega

/-- The digits of a quotient at a scale are those that it is at most half a place away from. -/
theorem digits_eq_of_near {above m : Nat} (hden : 0 < den)
    (hlow : 2 * (m * (den * 2 ^ above)) ≤ 2 * (num * unitsPerOne) + den * 2 ^ above)
    (hhigh : 2 * (num * unitsPerOne) ≤ 2 * (m * (den * 2 ^ above)) + den * 2 ^ above)
    (htie : m % 2 = 1 → 2 * (m * (den * 2 ^ above)) < 2 * (num * unitsPerOne) + den * 2 ^ above ∧
      2 * (num * unitsPerOne) < 2 * (m * (den * 2 ^ above)) + den * 2 ^ above) :
    digits num den above = m := by
  obtain ⟨n, d, c, hdigits, hc, hn, hd⟩ := digits_eq num den above
  have hpos : 0 < d := Nat.pos_of_mul_pos_right (hd ▸ Nat.mul_pos hden (Nat.two_pow_pos above))
  have hscale (k l : Nat) : 2 * (k * (d * c)) + l * (d * c) = (2 * (k * d) + l * d) * c := by ring
  rw [hdigits]
  rw [← hn, ← hd] at hlow hhigh htie
  refine roundQuotient_eq hpos ?_ ?_ ?_
  · refine Nat.le_of_mul_le_mul_right ?_ hc
    linarith
  · refine Nat.le_of_mul_le_mul_right ?_ hc
    linarith
  · intro hodd
    obtain ⟨hlow, hhigh⟩ := htie hodd
    constructor
    · refine Nat.lt_of_mul_lt_mul_right (a := c) ?_
      linarith
    · refine Nat.lt_of_mul_lt_mul_right (a := c) ?_
      linarith

theorem significand_ne_zero (h : x.isZero = false) : x.significand ≠ 0 := by
  intro hsignificand
  have hunits : x.units = 0 := by rw [units_eq, hsignificand, zero_mul]
  exact of_decide_eq_false h (units_eq_zero_iff.mp hunits)

theorem nearest_negative (negative : Bool) (num den : Nat) :
    (nearest negative num den).negative = negative := by
  rw [nearest, ofMagnitude]
  split <;> rfl

/-- A quotient in the interval of a double rounds to the double. -/
theorem nearest_of_contains (hfinite : x.isFinite = true) (hzero : x.isZero = false)
    (hden : 0 < den) (h : x.interval.Contains ((num : ℚ) / den)) :
    nearest x.negative num den = x := by
  have hinside := (Interval.contains_div_iff hden).mp h
  obtain ⟨hlow, hfirst⟩ := x.interval_low
  have hhigh : x.interval.high = 4 * x.significand + 2 := rfl
  have hclosed : x.interval.closed = decide (x.significand % 2 = 0) := rfl
  have habove : x.interval.above = x.scaleAbove := rfl
  rw [hhigh, hclosed, habove] at hinside
  have hpositive := significand_ne_zero hzero
  have hnum : num ≠ 0 := by
    rintro rfl
    have hlower : 0 < x.interval.low * (den * 2 ^ x.scaleAbove) :=
      Nat.mul_pos (by omega) (Nat.mul_pos hden (Nat.two_pow_pos _))
    rw [zero_mul] at hinside
    split at hinside <;> omega
  have hmagnitude : (scaleAboveOf num den <<< 52) + digits num den (scaleAboveOf num den) =
      x.magnitude := by
    rw [magnitude_eq, Nat.shiftLeft_eq]
    rcases scaleAboveOf_of_contains hnum hden h with hscale | ⟨hscale, hsignificand⟩
    · have hmul : (4 * x.significand - 2) * (den * 2 ^ x.scaleAbove) ≤
          x.interval.low * (den * 2 ^ x.scaleAbove) := Nat.mul_le_mul_right _ hlow
      rw [Nat.sub_mul, mul_assoc] at hmul
      rw [add_mul, mul_assoc 4] at hinside
      rw [hscale, digits_eq_of_near hden]
      · split at hinside <;> omega
      · split at hinside <;> omega
      · intro hodd
        rw [if_neg (by simpa using hodd)] at hinside
        omega
    · have hdouble : den * 2 ^ x.scaleAbove = 2 * (den * 2 ^ scaleAboveOf num den) := by
        rw [← hscale, pow_succ]
        ring
      obtain ⟨hbelow, -⟩ := scaleAboveOf_bounds hnum hden.ne'
      rw [hfirst (by omega) hsignificand, hsignificand, hdouble, if_pos (by decide)] at hinside
      rw [digits_eq_of_near (m := 2 ^ 53) hden]
      · omega
      · omega
      · omega
      · omega
  refine eq_of_magnitude (nearest_negative ..) ?_
  rw [magnitude_nearest, nearestMagnitude, if_neg hnum]
  show min _ ((scaleAboveOf num den <<< 52) + digits num den (scaleAboveOf num den)) = _
  rw [hmagnitude]
  exact Nat.min_eq_right (of_decide_eq_true hfinite).le

end Nearest

end Double

end ValueSchema

import Mathlib.Algebra.Order.Field.Rat
import Mathlib.Algebra.Order.Ring.Abs
import Mathlib.Tactic.FieldSimp
import ValueSchema.Proofs.Quotients

/-!
# Doubles that are whole numbers

`Double.value?` is the exact value of a finite double, a rational number.  The test for whole
numbers reads it off the units (`Double.value?_eq_intCast_iff`).

A whole number that is the value of a double is not rounded: the double nearest to it is that double
again, up to the sign of zero (`Double.equal_ofInt`).  So doubles that are whole numbers are ordered
as these numbers are (`Double.key_lt_iff`).  Any other whole number, if it is not too large, is
rounded to a whole number nearby (`Double.exists_toInt?_ofInt`).
-/

namespace ValueSchema

namespace Double

/-! ## Exact values -/

/-- The value times `2 ^ 1074`, of a finite double. -/
def signedUnits (x : Double) : Int := if x.negative then -(x.units : Int) else x.units

/-- The exact value of a finite double. -/
def value? (x : Double) : Option ℚ :=
  if x.isFinite then some ((x.signedUnits : ℚ) / unitsPerOne) else none

section Whole

variable {x y : Double} {m n : Int}

theorem natAbs_signedUnits (x : Double) : x.signedUnits.natAbs = x.units := by
  unfold signedUnits
  split
  · exact Int.natAbs_neg _
  · rfl

theorem toInt?_eq_some_iff_whole : x.toInt? = some n ↔ x.isIntegral = true ∧ x.whole = n := by
  simp [toInt?]

/-- A double is a whole number when its units are that many times those of one. -/
theorem toInt?_eq_some_iff :
    x.toInt? = some n ↔ x.isFinite = true ∧ x.signedUnits = n * unitsPerOne := by
  have hone := unitsPerOne_pos
  constructor
  · intro h
    obtain ⟨hintegral, rfl⟩ := toInt?_eq_some_iff_whole.mp h
    obtain ⟨hfinite, hunits⟩ := Bool.and_eq_true_iff.mp hintegral
    have hdvd : unitsPerOne ∣ x.units := Nat.dvd_of_mod_eq_zero (of_decide_eq_true hunits)
    have hwhole : ((x.units / unitsPerOne : Nat) : Int) * unitsPerOne = x.units := by
      exact_mod_cast Nat.div_mul_cancel hdvd
    refine ⟨hfinite, ?_⟩
    rw [whole, signedUnits]
    split
    · rw [neg_mul, hwhole]
    · exact hwhole.symm
  · rintro ⟨hfinite, hsigned⟩
    have hunits : x.units = n.natAbs * unitsPerOne := by
      rw [← natAbs_signedUnits, hsigned, Int.natAbs_mul, Int.natAbs_natCast]
    have hintegral : x.isIntegral = true := by
      rw [isIntegral, hfinite, hunits, Nat.mul_mod_left]
      rfl
    refine toInt?_eq_some_iff_whole.mpr ⟨hintegral, ?_⟩
    rw [whole, hunits, Nat.mul_div_cancel _ hone]
    rw [signedUnits, hunits] at hsigned
    split
    next hnegative =>
        rw [if_pos hnegative, Nat.cast_mul, ← neg_mul] at hsigned
        rw [Int.eq_of_mul_eq_mul_right (Int.natCast_ne_zero.mpr hone.ne') hsigned]
    next hpositive =>
        rw [if_neg hpositive, Nat.cast_mul] at hsigned
        rw [Int.eq_of_mul_eq_mul_right (Int.natCast_ne_zero.mpr hone.ne') hsigned]

/-- The integer that a double is, is its exact value. -/
theorem value?_eq_intCast_iff : x.value? = some (n : ℚ) ↔ x.toInt? = some n := by
  have hone : (unitsPerOne : ℚ) ≠ 0 := Nat.cast_ne_zero.mpr unitsPerOne_pos.ne'
  rw [toInt?_eq_some_iff, value?]
  split
  next hfinite =>
      rw [Option.some_inj, div_eq_iff hone, hfinite]
      simp only [true_and]
      exact_mod_cast Iff.rfl
  next hinfinite => simp [hinfinite]

theorem units_of_toInt? (h : x.toInt? = some n) :
    x.isFinite = true ∧ x.units = n.natAbs * unitsPerOne := by
  obtain ⟨hfinite, hsigned⟩ := toInt?_eq_some_iff.mp h
  refine ⟨hfinite, ?_⟩
  rw [← natAbs_signedUnits, hsigned, Int.natAbs_mul, Int.natAbs_natCast]

theorem isNaN_of_isFinite (h : x.isFinite = true) : x.isNaN = false :=
  decide_eq_false (Nat.not_lt.mpr (of_decide_eq_true h).le)

/-- A double that is zero has no units. -/
theorem toInt?_of_isZero (h : x.isZero = true) : x.toInt? = some 0 := by
  have hmagnitude : x.magnitude = 0 := of_decide_eq_true h
  have hunits : x.units = 0 := by simp [units, significand, fraction, exponent, hmagnitude]
  refine toInt?_eq_some_iff.mpr ⟨decide_eq_true (by rw [hmagnitude]; decide), ?_⟩
  simp [signedUnits, hunits]

end Whole

/-! ## Integers that are doubles -/

theorem roundQuotient_mul_self (m : Nat) {d : Nat} (hd : 0 < d) : roundQuotient (m * d) d = m := by
  simp [roundQuotient, Nat.mul_div_cancel _ hd, Nat.mul_mod_left, hd.ne]

section Exact

variable {x y : Double} {m n : Int}

/-- The digits and the scale of a finite double that is at least one. -/
theorem exists_digits {k : Nat} (hk : k ≠ 0) (hunits : x.units = k * unitsPerOne) :
    ∃ above digits, x.units = digits * 2 ^ above ∧ 2 ^ 52 ≤ digits ∧ digits < 2 ^ 53 ∧
      x.magnitude = (above <<< 52) + digits := by
  have hmagnitude := Nat.div_add_mod x.magnitude (2 ^ 52)
  have hfraction := Nat.mod_lt x.magnitude (Nat.two_pow_pos 52)
  have hexponent : x.exponent = x.magnitude / 2 ^ 52 := Nat.shiftRight_eq_div_pow ..
  -- With an empty exponent field the double would be smaller than one.
  have hnormal : x.exponent ≠ 0 := by
    intro hzero
    have hsmall : x.units < 2 ^ 52 := by
      rw [units, significand, scaleAbove, hzero, if_pos rfl, Nat.shiftLeft_eq, fraction,
        Nat.one_shiftLeft]
      simpa using hfraction
    have hlarge : 2 ^ 52 ≤ x.units := by
      have hgrows : ∀ c, 52 ≤ c → 2 ^ 52 ≤ 2 ^ c := fun c => Nat.pow_le_pow_right Nat.two_pos
      rw [hunits, unitsPerOne_eq]
      exact (hgrows 1074 (by decide)).trans (Nat.le_mul_of_pos_left _ (Nat.pos_of_ne_zero hk))
    exact absurd hsmall (Nat.not_lt.mpr hlarge)
  refine ⟨x.exponent - 1, 2 ^ 52 + x.magnitude % 2 ^ 52, ?_, by omega, by omega, ?_⟩
  · rw [units, significand, if_neg hnormal, scaleAbove, Nat.shiftLeft_eq, fraction,
      Nat.one_shiftLeft]
  · rw [Nat.shiftLeft_eq]
    omega

/-- The scale of a whole number counts its digits. -/
theorem above_eq_log2 {k above digits c : Nat} (hk : k ≠ 0)
    (hdigits : digits * 2 ^ above = k * 2 ^ (c + 52)) (hlo : 2 ^ 52 ≤ digits)
    (hhi : digits < 2 ^ 53) : above = k.log2 + c := by
  have hlog : k.log2 + (c + 52) < 53 + above := by
    refine lt_of_mul_pow_lt (a := 1) ?_
    rw [one_mul, one_mul]
    calc 2 ^ (k.log2 + (c + 52)) = 2 ^ k.log2 * 2 ^ (c + 52) := pow_add ..
      _ ≤ k * 2 ^ (c + 52) := Nat.mul_le_mul_right _ (pow_log2_le hk)
      _ = digits * 2 ^ above := hdigits.symm
      _ < 2 ^ 53 * 2 ^ above := Nat.mul_lt_mul_of_pos_right hhi (Nat.two_pow_pos above)
      _ = 2 ^ (53 + above) := (pow_add ..).symm
  have hlog' : 52 + above < k.log2 + 1 + (c + 52) := by
    refine lt_of_mul_pow_lt (a := 1) ?_
    rw [one_mul, one_mul]
    calc 2 ^ (52 + above) = 2 ^ 52 * 2 ^ above := pow_add ..
      _ ≤ digits * 2 ^ above := Nat.mul_le_mul_right _ hlo
      _ = k * 2 ^ (c + 52) := hdigits
      _ < 2 ^ (k.log2 + 1) * 2 ^ (c + 52) :=
          Nat.mul_lt_mul_of_pos_right lt_pow_log2 (Nat.two_pow_pos (c + 52))
      _ = 2 ^ (k.log2 + 1 + (c + 52)) := (pow_add ..).symm
  omega

/-- Digits that a whole number has are its leading ones. -/
theorem leading_eq_digits {k digits c : Nat}
    (hdigits : digits * 2 ^ (k.log2 + c) = k * 2 ^ (c + 52)) : leading k = digits := by
  unfold leading
  split
  next hlong =>
      have hk : k = digits * 2 ^ (k.log2 - 52) := by
        refine Nat.mul_right_cancel (Nat.two_pow_pos (c + 52)) ?_
        rw [← hdigits, mul_assoc, ← pow_add, show k.log2 - 52 + (c + 52) = k.log2 + c by omega]
      rw [Nat.one_shiftLeft]
      calc roundQuotient k (2 ^ (k.log2 - 52))
          = roundQuotient (digits * 2 ^ (k.log2 - 52)) (2 ^ (k.log2 - 52)) := by rw [← hk]
        _ = digits := roundQuotient_mul_self digits (Nat.two_pow_pos _)
  next hshort =>
      rw [Nat.shiftLeft_eq]
      refine Nat.mul_right_cancel (Nat.two_pow_pos (k.log2 + c)) ?_
      rw [hdigits, mul_assoc, ← pow_add, show 52 - k.log2 + (k.log2 + c) = c + 52 by omega]

/-- Rounding does not change a whole number that is a double. -/
theorem nearestMagnitude_of_units {k : Nat} (hk : k ≠ 0) (hfinite : x.isFinite = true)
    (hunits : x.units = k * unitsPerOne) : nearestMagnitude k 1 = x.magnitude := by
  obtain ⟨above, digits, hdigits, hlo, hhi, hmagnitude⟩ := exists_digits hk hunits
  have hscaled : digits * 2 ^ above = k * 2 ^ (1022 + 52) := by
    rw [← hdigits, hunits, unitsPerOne_eq]
  obtain rfl := above_eq_log2 hk hscaled hlo hhi
  rw [nearestMagnitude_one hk, leading_eq_digits hscaled, ← hmagnitude]
  exact Nat.min_eq_right (of_decide_eq_true hfinite).le

theorem eq_of_magnitude (hnegative : x.negative = y.negative) (h : x.magnitude = y.magnitude) :
    x = y := by
  cases x
  cases y
  cases hnegative
  cases h
  rfl

/-- The double nearest to an integer other than zero is the double that it is, if it is one. -/
theorem ofInt_eq (h : x.toInt? = some n) (hn : n ≠ 0) : ofInt n = x := by
  obtain ⟨hfinite, hsigned⟩ := toInt?_eq_some_iff.mp h
  have hunits := (units_of_toInt? h).2
  refine eq_of_magnitude ?_ ?_
  · have hone : (0 : Int) < unitsPerOne := Int.natCast_pos.mpr unitsPerOne_pos
    have hnegative : decide (n < 0) = x.negative := by
      rw [signedUnits] at hsigned
      cases hx : x.negative with
      | true =>
          rw [hx, if_pos rfl] at hsigned
          refine decide_eq_true (lt_of_le_of_ne ?_ hn)
          exact nonpos_of_mul_nonpos_left (hsigned ▸ by omega) hone
      | false =>
          rw [hx, if_neg Bool.false_ne_true] at hsigned
          refine decide_eq_false (not_lt.mpr ?_)
          exact nonneg_of_mul_nonneg_left (hsigned ▸ Int.natCast_nonneg _) hone
    rw [ofInt, nearest, ofMagnitude]
    split <;> exact hnegative
  · rw [ofInt, magnitude_nearest]
    exact nearestMagnitude_of_units (Int.natAbs_ne_zero.mpr hn) hfinite hunits

/-- A double that is the integer zero is one of the two zeros. -/
theorem isZero_of_toInt?_zero (h : x.toInt? = some 0) : x.isZero = true := by
  have hunits : x.units = 0 := by simpa using (units_of_toInt? h).2
  rw [units, Nat.shiftLeft_eq_zero_iff, significand] at hunits
  split at hunits
  next hexponent =>
      rw [exponent, Nat.shiftRight_eq_div_pow] at hexponent
      rw [fraction, Nat.one_shiftLeft] at hunits
      exact decide_eq_true (by omega)
  next => omega

/-- The double nearest to an integer that is a double is that double, up to the sign of zero. -/
theorem equal_ofInt (h : x.toInt? = some n) :
    ofInt n = x ∨ (ofInt n).isZero = true ∧ x.isZero = true := by
  by_cases hn : n = 0
  · subst hn
    exact .inr ⟨rfl, isZero_of_toInt?_zero h⟩
  · exact .inl (ofInt_eq h hn)

/-! ## Order -/

theorem key_of_isZero (h : x.isZero = true) : x.key = 0 := by
  simp [key, of_decide_eq_true h]

theorem key_eq_of_toInt? (h : x.toInt? = some n) : x.key = (ofInt n).key := by
  rcases equal_ofInt h with heq | ⟨hzero, hzero'⟩
  · rw [heq]
  · rw [key_of_isZero hzero, key_of_isZero hzero']

/-- Doubles at one place in the order are one double or zeros. -/
theorem toInt?_eq_of_key_eq (h : x.key = y.key) : x.toInt? = y.toInt? := by
  by_cases hx : x.magnitude = 0
  · have hy : y.magnitude = 0 := by
      rw [key_of_isZero (decide_eq_true hx), key] at h
      split at h <;> omega
    rw [toInt?_of_isZero (decide_eq_true hx), toInt?_of_isZero (decide_eq_true hy)]
  · have hsame : x.negative = y.negative ∧ x.magnitude = y.magnitude := by
      unfold key at h
      cases hxn : x.negative <;> cases hyn : y.negative <;> simp [hxn, hyn] at h ⊢ <;> omega
    rw [eq_of_magnitude hsame.1 hsame.2]

/-- Doubles that are integers are ordered as these are. -/
theorem key_lt_iff (hx : x.toInt? = some m) (hy : y.toInt? = some n) : x.key < y.key ↔ m < n := by
  have hxkey := key_eq_of_toInt? hx
  have hykey := key_eq_of_toInt? hy
  constructor
  · intro h
    by_contra hle
    have := key_ofInt_le (Int.not_lt.mp hle)
    omega
  · intro h
    refine lt_of_le_of_ne ?_ fun heq => ?_
    · rw [hxkey, hykey]
      exact key_ofInt_le h.le
    · have hmn := toInt?_eq_of_key_eq heq
      rw [hx, hy] at hmn
      exact absurd (Option.some.inj hmn) h.ne

end Exact

/-! ## Integers that are rounded -/

/-- An integer that is not too large is rounded like the quotient of itself by one. -/
theorem ofInt_rounds {n : Int} (hn : n ≠ 0) (hlarge : n.natAbs < 2 ^ 1023) :
    (ofInt n).Rounds n.natAbs 1 (2 ^ scaleAboveOf n.natAbs 1) := by
  have hn0 : n.natAbs ≠ 0 := Int.natAbs_ne_zero.mpr hn
  refine nearest_rounds _ hn0 Nat.one_ne_zero ?_ (by rwa [one_mul])
  exact Nat.succ_le_of_lt (Nat.mul_pos (Nat.pos_of_ne_zero hn0) (by positivity))

section Rounded

variable {x : Double} {num k : Nat}

theorem Rounds.units_near (h : x.Rounds num 1 (2 ^ k)) :
    2 * |(x.units : Int) - num * unitsPerOne| ≤ 2 ^ k := by
  have hlow : (2 * (num * unitsPerOne) : Int) ≤ 2 * (x.units * 1) + 2 ^ k * 1 := by
    exact_mod_cast h.low
  have hhigh : (2 * (x.units * 1) : Int) ≤ 2 * (num * unitsPerOne) + 2 ^ k * 1 := by
    exact_mod_cast h.high
  rcases abs_cases ((x.units : Int) - num * unitsPerOne) with ⟨habs, -⟩ | ⟨habs, -⟩ <;>
    rw [habs] <;> linarith

/-- A rounded whole number is a whole number: either the step is not longer than one, and then it
is not rounded, or all multiples of the step are whole. -/
theorem Rounds.one_dvd (h : x.Rounds num 1 (2 ^ k)) : unitsPerOne ∣ x.units := by
  rcases Nat.le_total k 1074 with hshort | hlong
  · have hdvd : ((2 ^ k : Nat) : Int) ∣ (x.units : Int) - num * unitsPerOne := by
      refine dvd_sub (Int.natCast_dvd_natCast.mpr h.step_dvd) (Dvd.dvd.mul_left ?_ _)
      rw [unitsPerOne_eq]
      exact Int.natCast_dvd_natCast.mpr (pow_dvd_pow 2 hshort)
    have hpos : (0 : Int) < 2 ^ k := by positivity
    have hclose := h.units_near
    have hzero := Int.eq_zero_of_abs_lt_dvd hdvd (by push_cast; linarith)
    refine Int.natCast_dvd_natCast.mp ⟨num, ?_⟩
    linarith
  · rw [unitsPerOne_eq]
    exact (pow_dvd_pow 2 hlong).trans h.step_dvd

end Rounded

/-- An integer that is not too large is rounded to an integer.  They differ by no more than the
53rd binary digit. -/
theorem exists_toInt?_ofInt {n : Int} (hlarge : n.natAbs < 2 ^ 1023) :
    ∃ m, (ofInt n).toInt? = some m ∧ 2 ^ 53 * |m - n| ≤ |n| := by
  by_cases hn : n = 0
  · exact ⟨0, by rw [hn]; exact toInt?_of_isZero rfl, by simp [hn]⟩
  have h := ofInt_rounds hn hlarge
  have hone : (0 : Int) < unitsPerOne := Int.natCast_pos.mpr unitsPerOne_pos
  obtain ⟨k, hk⟩ := h.one_dvd
  have hnear : 2 ^ 53 * |(k : Int) - n.natAbs| ≤ n.natAbs := by
    have hdistance : |(unitsPerOne * k : Int) - n.natAbs * unitsPerOne| =
        |(k : Int) - n.natAbs| * unitsPerOne := by
      rw [mul_comm (unitsPerOne : Int), ← sub_mul, abs_mul, abs_of_pos hone]
    have hclose := h.units_near
    rw [hk, Nat.cast_mul, hdistance] at hclose
    have hdigits : (2 ^ 52 * 2 ^ scaleAboveOf n.natAbs 1 : Int) ≤ n.natAbs * unitsPerOne := by
      have hlow := h.digits_low
      rw [mul_one] at hlow
      exact_mod_cast hlow
    refine le_of_mul_le_mul_right ?_ hone
    linarith
  refine ⟨if n < 0 then -(k : Int) else k, toInt?_eq_some_iff.mpr ⟨h.finite, ?_⟩, ?_⟩
  · have hnegative : (ofInt n).negative = decide (n < 0) := by
      rw [ofInt, nearest, ofMagnitude]
      split <;> rfl
    rw [signedUnits, hnegative, hk, Nat.cast_mul, mul_comm (unitsPerOne : Int)]
    by_cases hneg : n < 0
    · simp [hneg]
    · simp [hneg]
  · split
    next hneg =>
        have hsign : (n.natAbs : Int) = -n := by omega
        rw [hsign] at hnear
        rwa [abs_of_neg hneg, ← abs_neg, neg_sub', neg_neg]
    next hpos =>
        have hsign : (n.natAbs : Int) = n := by omega
        rw [hsign] at hnear
        rwa [abs_of_nonneg (Int.not_lt.mp hpos)]

/-- Integers up to `2 ^ 53` are doubles. -/
theorem toInt?_ofInt {n : Int} (h : |n| ≤ 2 ^ 53) : (ofInt n).toInt? = some n := by
  rcases h.lt_or_eq with hlt | heq
  · have hlarge : n.natAbs < 2 ^ 1023 := by
      have hgrows : ∀ c, 53 ≤ c → 2 ^ 53 ≤ 2 ^ c := fun c => Nat.pow_le_pow_right Nat.two_pos
      rw [Int.abs_eq_natAbs] at hlt
      exact lt_of_lt_of_le (by omega) (hgrows 1023 (by decide))
    obtain ⟨m, hm, hnear⟩ := exists_toInt?_ofInt hlarge
    -- Below `2 ^ 53` the distance to the rounded integer is less than one.
    have hzero : |m - n| = 0 := by
      have hnonneg := abs_nonneg (m - n)
      omega
    rw [hm, sub_eq_zero.mp (abs_eq_zero.mp hzero)]
  · rcases (abs_eq (by positivity)).mp heq with rfl | rfl <;> decide +kernel

end Double

end ValueSchema

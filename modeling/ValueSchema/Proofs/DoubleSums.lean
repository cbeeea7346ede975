import ValueSchema.Proofs.ShortestDecimals

/-!
# Sums of doubles

Changing the sign changes the sign of the value (`Double.value?_neg`).  A sum is rounded, but where
the exact sum of two finite doubles is a double it is the result (`Double.value?_add`).  So whole
numbers are added exactly up to `2 ^ 53` (`Double.toInt?_add`).
-/

namespace ValueSchema

namespace Double

variable {x y z : Double} {a b : ℚ} {m n : ℤ}

theorem signedUnits_neg (x : Double) : x.neg.signedUnits = -x.signedUnits := by
  have hunits : x.neg.units = x.units := rfl
  rw [signedUnits, signedUnits, hunits, neg]
  cases x.negative <;> simp

theorem value?_neg (h : x.value? = some a) : x.neg.value? = some (-a) := by
  rw [eq_of_value? h]
  rw [value?] at h ⊢
  split at h
  next hfinite =>
      have hneg : x.neg.isFinite = true := hfinite
      rw [if_pos hneg, signedUnits_neg, Int.cast_neg, neg_div]
  next => cases h

theorem isFinite_of_value? (h : x.value? = some a) : x.isFinite = true := by
  rw [value?] at h
  split at h
  · assumption
  · cases h

/-- A sum that is a double other than zero is not rounded. -/
theorem add_eq (hx : x.isFinite = true) (hy : y.isFinite = true) (hz : z.isFinite = true)
    (hzero : z.isZero = false) (h : x.signedUnits + y.signedUnits = z.signedUnits) :
    x.add y = z := by
  have hsignificand := significand_ne_zero hzero
  have hne : z.signedUnits ≠ 0 := by
    rw [← Int.natAbs_ne_zero, natAbs_signedUnits]
    exact fun hunits => of_decide_eq_false hzero (units_eq_zero_iff.mp hunits)
  have hnegative : decide (z.signedUnits < 0) = z.negative := by
    unfold signedUnits at hne ⊢
    cases hsign : z.negative with
    | true =>
        rw [hsign, if_pos rfl] at hne
        exact decide_eq_true (by rw [if_pos rfl]; omega)
    | false => exact decide_eq_false (by rw [if_neg Bool.false_ne_true]; omega)
  have hcenter := interval_contains_center hsignificand
  rw [interval_center] at hcenter
  unfold add
  rw [isNaN_of_isFinite hx, isNaN_of_isFinite hy, hx, hy]
  show (if x.signedUnits + y.signedUnits = 0 then _ else
    nearest (decide (x.signedUnits + y.signedUnits < 0)) (x.signedUnits + y.signedUnits).natAbs
      unitsPerOne) = z
  rw [h, if_neg hne, hnegative, natAbs_signedUnits]
  exact nearest_of_contains hz hzero unitsPerOne_pos hcenter

/-- A sum that is zero is the zero of both signs. -/
theorem add_eq_zero (hx : x.isFinite = true) (hy : y.isFinite = true)
    (h : x.signedUnits + y.signedUnits = 0) : x.add y = zero (x.negative && y.negative) := by
  unfold add
  rw [isNaN_of_isFinite hx, isNaN_of_isFinite hy, hx, hy]
  exact if_pos h

/-- Where the exact sum is a double, it is the sum. -/
theorem value?_add (hx : x.value? = some a) (hy : y.value? = some b) (hz : z.value? = some (a + b)) :
    (x.add y).value? = some (a + b) := by
  have hone : (unitsPerOne : ℚ) ≠ 0 := Nat.cast_ne_zero.mpr unitsPerOne_pos.ne'
  have hfinite := isFinite_of_value? hz
  have hunits : x.signedUnits + y.signedUnits = z.signedUnits := by
    have hsum := eq_of_value? hz
    rw [eq_of_value? hx, eq_of_value? hy, ← add_div, div_left_inj' hone] at hsum
    exact_mod_cast hsum
  by_cases hzero : z.isZero = true
  · have hvalue : z.value? = some ((0 : ℤ) : ℚ) := value?_eq_intCast_iff.mpr (toInt?_of_isZero hzero)
    rw [hz] at hvalue
    have hnone : z.signedUnits = 0 := by
      rw [← Int.natAbs_eq_zero, natAbs_signedUnits]
      exact units_eq_zero_iff.mpr (of_decide_eq_true hzero)
    rw [add_eq_zero (isFinite_of_value? hx) (isFinite_of_value? hy) (hunits.trans hnone), hvalue]
    exact value?_eq_intCast_iff.mpr (toInt?_of_isZero rfl)
  · rw [add_eq (isFinite_of_value? hx) (isFinite_of_value? hy) hfinite
      (Bool.eq_false_iff.mpr hzero) hunits]
    exact hz

/-- Whole numbers are added exactly up to `2 ^ 53`. -/
theorem toInt?_add (hx : x.toInt? = some m) (hy : y.toInt? = some n) (h : |m + n| ≤ 2 ^ 53) :
    (x.add y).toInt? = some (m + n) := by
  have hsum : (ofInt (m + n)).value? = some ((m : ℚ) + n) := by
    rw [← Int.cast_add]
    exact value?_eq_intCast_iff.mpr (toInt?_ofInt h)
  have hvalue := value?_add (value?_eq_intCast_iff.mpr hx) (value?_eq_intCast_iff.mpr hy) hsum
  rw [← Int.cast_add] at hvalue
  exact value?_eq_intCast_iff.mp hvalue

end Double

end ValueSchema

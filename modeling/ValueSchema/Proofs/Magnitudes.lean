import Mathlib.Algebra.Order.Field.Basic
import ValueSchema.Proofs.WholeDoubles

/-!
# Magnitudes and values

The magnitude of a double counts through the significands of one scale after those of another
(`Double.magnitude_eq`), so a greater magnitude is a greater number of units
(`Double.units_lt_iff`).
The order of doubles is read off the magnitudes, and of finite doubles it is therefore the order of
their exact values (`Double.order_eq_compare`).
-/

namespace ValueSchema

namespace Double

variable {x y : Double}

theorem units_eq (x : Double) : x.units = x.significand * 2 ^ x.scaleAbove := Nat.shiftLeft_eq ..

theorem fraction_lt (x : Double) : x.fraction < 2 ^ 52 := Nat.mod_lt _ (Nat.two_pow_pos 52)

theorem significand_lt (x : Double) : x.significand < 2 ^ 53 := by
  have hfraction := x.fraction_lt
  rw [significand, Nat.one_shiftLeft]
  split <;> omega

/-- Fewer than 53 digits are there only at the least scale. -/
theorem scaleAbove_eq_zero_or (x : Double) : x.scaleAbove = 0 ∨ 2 ^ 52 ≤ x.significand := by
  rw [scaleAbove, significand, Nat.one_shiftLeft]
  split <;> omega

theorem magnitude_eq (x : Double) : x.magnitude = x.scaleAbove * 2 ^ 52 + x.significand := by
  have hexponent : x.exponent = x.magnitude / 2 ^ 52 := Nat.shiftRight_eq_div_pow ..
  have hfraction : x.fraction = x.magnitude % 2 ^ 52 := by rw [fraction, Nat.one_shiftLeft]
  rw [scaleAbove, significand, Nat.one_shiftLeft, hfraction]
  split <;> omega

theorem units_lt_of_magnitude_lt (h : x.magnitude < y.magnitude) : x.units < y.units := by
  have hx := x.significand_lt
  have hy := y.significand_lt
  have hxscale := x.scaleAbove_eq_zero_or
  have hyscale := y.scaleAbove_eq_zero_or
  rw [magnitude_eq, magnitude_eq] at h
  rw [units_eq, units_eq]
  rcases Nat.lt_trichotomy x.scaleAbove y.scaleAbove with hlt | heq | hgt
  · have hpow : 2 ^ (x.scaleAbove + 1) ≤ 2 ^ y.scaleAbove := Nat.pow_le_pow_right Nat.two_pos hlt
    calc x.significand * 2 ^ x.scaleAbove < 2 ^ 53 * 2 ^ x.scaleAbove :=
          Nat.mul_lt_mul_of_pos_right hx (Nat.two_pow_pos _)
      _ = 2 ^ 52 * 2 ^ (x.scaleAbove + 1) := by ring
      _ ≤ y.significand * 2 ^ y.scaleAbove := Nat.mul_le_mul (by omega) hpow
  · rw [heq]
    exact Nat.mul_lt_mul_of_pos_right (by omega) (Nat.two_pow_pos _)
  · omega

theorem units_of_magnitude_eq (h : x.magnitude = y.magnitude) : x.units = y.units := by
  unfold units significand scaleAbove exponent fraction
  rw [h]

theorem units_lt_iff : x.units < y.units ↔ x.magnitude < y.magnitude := by
  refine ⟨fun h => ?_, units_lt_of_magnitude_lt⟩
  rcases Nat.lt_trichotomy x.magnitude y.magnitude with hlt | heq | hgt
  · exact hlt
  · exact absurd (units_of_magnitude_eq heq) h.ne
  · exact absurd (units_lt_of_magnitude_lt hgt) h.not_gt

theorem units_le_iff : x.units ≤ y.units ↔ x.magnitude ≤ y.magnitude := by
  rw [← Nat.not_lt, ← Nat.not_lt, not_congr units_lt_iff]

theorem units_eq_zero_iff : x.units = 0 ↔ x.magnitude = 0 := by
  have hzero : (zero false).units = 0 := by decide +kernel
  have hle := @units_le_iff x (zero false)
  rwa [hzero, Nat.le_zero, show (zero false).magnitude = 0 from rfl, Nat.le_zero] at hle

/-- The number that the order is read off grows with the units. -/
theorem key_lt_key_iff : x.key < y.key ↔ x.signedUnits < y.signedUnits := by
  have hx := @units_eq_zero_iff x
  have hy := @units_eq_zero_iff y
  have hxy := @units_lt_iff x y
  have hyx := @units_lt_iff y x
  unfold key signedUnits
  split <;> split <;> omega

theorem eq_of_value? {a : ℚ} (h : x.value? = some a) : a = x.signedUnits / unitsPerOne := by
  rw [value?] at h
  split at h
  · exact (Option.some.inj h).symm
  · cases h

theorem key_lt_key_iff_value {a b : ℚ} (hx : x.value? = some a) (hy : y.value? = some b) :
    x.key < y.key ↔ a < b := by
  rw [eq_of_value? hx, eq_of_value? hy, key_lt_key_iff,
    div_lt_div_iff_of_pos_right (Nat.cast_pos.mpr unitsPerOne_pos), Int.cast_lt]

/-- Finite doubles are ordered as their values are. -/
theorem order_eq_compare {a b : ℚ} (hx : x.value? = some a) (hy : y.value? = some b) :
    x.order y = compare a b := by
  have hlt := key_lt_key_iff_value hx hy
  have hgt := key_lt_key_iff_value hy hx
  rw [order]
  rcases lt_trichotomy a b with h | h | h
  · rw [compare_lt_iff_lt.mpr h, compare_lt_iff_lt.mpr (hlt.mpr h)]
  · rw [compare_eq_iff_eq.mpr h, compare_eq_iff_eq]
    refine le_antisymm (not_lt.mp fun hkey => ?_) (not_lt.mp fun hkey => ?_)
    · exact (hgt.mp hkey).ne' h
    · exact (hlt.mp hkey).ne h
  · rw [compare_gt_iff_gt.mpr h, compare_gt_iff_gt.mpr (hgt.mpr h)]

/-- The doubles between an integer and its negative are those of a smaller magnitude. -/
theorem magnitude_le_iff {n : Int} (hy : y.toInt? = some n) :
    x.magnitude ≤ y.magnitude ↔ ∃ a, x.value? = some a ∧ |a| ≤ |n| := by
  obtain ⟨hfinite, hunits⟩ := units_of_toInt? hy
  have hone : (0 : ℚ) < unitsPerOne := Nat.cast_pos.mpr unitsPerOne_pos
  have habs : |(x.signedUnits : ℚ) / unitsPerOne| = x.units / unitsPerOne := by
    rw [abs_div, abs_of_pos hone, ← Int.cast_abs, Int.abs_eq_natAbs, natAbs_signedUnits,
      Int.cast_natCast]
  have hle : x.magnitude ≤ y.magnitude ↔ |(x.signedUnits : ℚ) / unitsPerOne| ≤ |n| := by
    rw [← units_le_iff, hunits, habs, div_le_iff₀ hone, Int.abs_eq_natAbs]
    exact_mod_cast Iff.rfl
  constructor
  · intro h
    have hx : x.isFinite = true := decide_eq_true (h.trans_lt (of_decide_eq_true hfinite))
    exact ⟨_, if_pos hx, hle.mp h⟩
  · rintro ⟨a, ha, hn⟩
    rw [eq_of_value? ha] at hn
    exact hle.mpr hn

end Double

end ValueSchema

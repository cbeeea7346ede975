import Mathlib.Algebra.Order.Ring.Abs
import ValueSchema.Proofs.Multiples
import ValueSchema.Proofs.WholeDoubles

/-!
# Multiples among integral doubles

A number counts as a multiple of a step when the double nearest to their quotient lies within a
tolerance of a whole number.  For two integers the quotient is exact up to half a step of its last
digit, and then what the verdict says about the exact quotient depends on the tolerance alone, which
lies between `2 ^ -30` and `5 * 2 ^ -32`.

`Check.multiple_of_number` says that a quotient less than `2 ^ -31` away from a whole number passes,
and one more than `3 * 2 ^ -31` away does not.  The distance is a multiple of the inverse of the
step, so the check is exact up to steps of a third of `2 ^ 31`.
-/

namespace ValueSchema

namespace Double

/-! ## Doubles near whole numbers -/

/-- A finite double is near a whole number if it is less than the tolerance away from one. -/
theorem isNearWhole_iff {x tolerance : Double} (hfinite : x.isFinite = true)
    (htolerance : tolerance.units ≤ unitsPerOne) :
    x.isNearWhole tolerance = true ↔
      ∃ m : Int, |(x.units : Int) - m * unitsPerOne| < tolerance.units := by
  have hr := Nat.mod_lt x.units unitsPerOne_pos
  have hunits : (x.units : Int) =
      (x.units / unitsPerOne : Nat) * unitsPerOne + (x.units % unitsPerOne : Nat) := by
    rw [mul_comm, ← Nat.cast_mul, ← Nat.cast_add, Nat.div_add_mod]
  have hdistance (m : Int) : (x.units : Int) - m * unitsPerOne =
      ((x.units / unitsPerOne : Nat) - m) * unitsPerOne + (x.units % unitsPerOne : Nat) := by
    rw [hunits]
    ring
  unfold isNearWhole
  dsimp only
  rw [hfinite, Bool.true_and, decide_eq_true_iff]
  generalize x.units % unitsPerOne = r at *
  generalize x.units / unitsPerOne = q at *
  constructor
  · intro hmin
    rcases min_lt_iff.mp hmin with hlt | hlt
    · refine ⟨q, ?_⟩
      rw [hdistance, sub_self, zero_mul, zero_add, abs_lt]
      omega
    · refine ⟨q + 1, ?_⟩
      rw [hdistance, sub_add_cancel_left, abs_lt]
      omega
  · rintro ⟨m, hm⟩
    rw [hdistance, abs_lt] at hm
    -- Only the whole numbers on both sides can be that near.
    generalize (q : Int) - m = t at hm
    rcases lt_trichotomy t 0 with hneg | rfl | hpos
    · rcases eq_or_lt_of_le (Int.le_sub_one_of_lt hneg) with heq | hlt
      · rw [heq] at hm
        omega
      · have hfar : t * unitsPerOne ≤ -2 * (unitsPerOne : Int) :=
          mul_le_mul_of_nonneg_right (by omega) (Int.natCast_nonneg _)
        omega
    · omega
    · have hfar : 1 * (unitsPerOne : Int) ≤ t * unitsPerOne :=
        mul_le_mul_of_nonneg_right hpos (Int.natCast_nonneg _)
      omega

/-! ## Quotients of integers -/

section Quotient

variable {num den step : Nat} {x : Double}

/-- Counting both numbers in parts of the same size changes nothing. -/
theorem Rounds.cancel {c : Nat} (hc : 0 < c) (h : x.Rounds (num * c) (den * c) step) :
    x.Rounds num den step where
  finite := h.finite
  step_dvd := h.step_dvd
  low := by
    refine Nat.le_of_mul_le_mul_right ?_ hc
    calc 2 * (num * unitsPerOne) * c = 2 * (num * c * unitsPerOne) := by ring
      _ ≤ 2 * (x.units * (den * c)) + step * (den * c) := h.low
      _ = (2 * (x.units * den) + step * den) * c := by ring
  high := by
    refine Nat.le_of_mul_le_mul_right ?_ hc
    calc 2 * (x.units * den) * c = 2 * (x.units * (den * c)) := by ring
      _ ≤ 2 * (num * c * unitsPerOne) + step * (den * c) := h.high
      _ = (2 * (num * unitsPerOne) + step * den) * c := by ring
  digits_low := by
    refine Nat.le_of_mul_le_mul_right ?_ hc
    calc 2 ^ 52 * (step * den) * c = 2 ^ 52 * (step * (den * c)) := by ring
      _ ≤ num * c * unitsPerOne := h.digits_low
      _ = num * unitsPerOne * c := by ring
  digits_high := by
    refine Nat.lt_of_mul_lt_mul_right (a := c) ?_
    calc num * unitsPerOne * c = num * c * unitsPerOne := by ring
      _ < 2 ^ 53 * (step * (den * c)) := h.digits_high
      _ = 2 ^ 53 * (step * den) * c := by ring

/-- Where the numerator has at most 53 digits, a step is less than twice the inverse of the
denominator. -/
theorem Rounds.step_small (h : x.Rounds num den step) (hnum : num < 2 ^ 53) :
    step * den < 2 * unitsPerOne := by
  refine Nat.lt_of_mul_lt_mul_left (a := 2 ^ 52) ?_
  calc 2 ^ 52 * (step * den) ≤ num * unitsPerOne := h.digits_low
    _ < 2 ^ 53 * unitsPerOne := Nat.mul_lt_mul_of_pos_right hnum unitsPerOne_pos
    _ = 2 ^ 52 * (2 * unitsPerOne) := by ring

/-- How far the quotient is from a whole number, exactly and after rounding. -/
theorem Rounds.close (h : x.Rounds num den step) (m : Int) :
    |2 * (((x.units : Int) - m * unitsPerOne) * den) -
        2 * (unitsPerOne * ((num : Int) - m * den))| ≤ step * den := by
  have hlow : 2 * ((num : Int) * unitsPerOne) ≤ 2 * ((x.units : Int) * den) + step * den := by
    exact_mod_cast h.low
  have hhigh : 2 * ((x.units : Int) * den) ≤ 2 * ((num : Int) * unitsPerOne) + step * den := by
    exact_mod_cast h.high
  rw [abs_le]
  constructor <;> linarith

end Quotient

/-! ## The tolerance -/

/-- The distance `2 ^ -32` in units. -/
def fineUnit : Nat := 1 <<< 1042

theorem unitsPerOne_fine : unitsPerOne = 2 ^ 32 * fineUnit := by decide +kernel

/-- The tolerance lies between `2 ^ -30` and `5 * 2 ^ -32`. -/
theorem multipleTolerance_bounds :
    4 * fineUnit ≤ Check.multipleTolerance.units ∧
      Check.multipleTolerance.units ≤ 5 * fineUnit := by
  decide +kernel

theorem fineUnit_eq : fineUnit = 2 ^ 1042 := by
  have hshift : ∀ k, 1 <<< k = 2 ^ k := Nat.one_shiftLeft
  exact hshift _

/-- A step that is a power of two is shorter than `2 ^ -30`, or of that length, or longer. -/
theorem pow_fine (k : Nat) :
    2 ^ k ≤ 2 * fineUnit ∨ 2 ^ k = 4 * fineUnit ∨ 8 * fineUnit ≤ 2 ^ k := by
  have hscaled (j : Nat) : 2 ^ j * fineUnit = 2 ^ (1042 + j) := by
    rw [fineUnit_eq, mul_comm, ← pow_add]
  have hmono {i j : Nat} (h : i ≤ j) : 2 ^ i ≤ 2 ^ j := Nat.pow_le_pow_right Nat.two_pos h
  rw [show 2 * fineUnit = 2 ^ 1 * fineUnit from rfl, show 4 * fineUnit = 2 ^ 2 * fineUnit from rfl,
    show 8 * fineUnit = 2 ^ 3 * fineUnit from rfl, hscaled, hscaled, hscaled]
  rcases lt_trichotomy k (1042 + 2) with hlt | heq | hgt
  · exact .inl (hmono (by omega))
  · exact .inr (.inl (by rw [heq]))
  · exact .inr (.inr (hmono (by omega)))

section Distance

variable {one fine step den tolerance D E : Int}

variable (hfine : 0 < fine) (hone : one = 2 ^ 32 * fine) (hden : 0 < den) (hdvd : step ∣ D)
  (hclose : |2 * (D * den) - 2 * (one * E)| ≤ step * den)

include hfine hone hden hclose

theorem abs_close : |2 * (|D| * den) - 2 * (one * |E|)| ≤ step * den := by
  have hone0 : 0 < one := by omega
  have habs := (abs_abs_sub_abs_le (2 * (D * den)) (2 * (one * E))).trans hclose
  rwa [abs_mul 2, abs_mul 2, abs_mul D, abs_mul one, abs_two, abs_of_pos hden, abs_of_pos hone0]
    at habs

include hdvd

/-- A quotient near a whole number is rounded to a double near it. -/
theorem near_of_quotient_near (hstep : step ≤ 4 * fine ∨ 8 * fine ≤ step)
    (htolerance : 4 * fine ≤ tolerance) (hE : 2 ^ 31 * |E| < den) : |D| < tolerance := by
  have hsum := (abs_le.mp (abs_close hfine hone hden hclose)).2
  have hsmall : 2 * (one * |E|) < 4 * fine * den := by
    calc 2 * (one * |E|) = 4 * fine * (2 ^ 31 * |E|) := by rw [hone]; ring
      _ < 4 * fine * den := mul_lt_mul_of_pos_left hE (by omega)
  have hless : 2 * |D| < step + 4 * fine := by
    refine lt_of_mul_lt_mul_right ?_ hden.le
    calc 2 * |D| * den = 2 * (|D| * den) := mul_assoc ..
      _ < (step + 4 * fine) * den := by linarith
  rcases hstep with hle | hge
  · omega
  · -- The double is a multiple of a step that is longer than its distance.
    rw [Int.eq_zero_of_abs_lt_dvd hdvd (by omega), abs_zero]
    omega

/-- A quotient that is rounded to a double near a whole number is near it itself. -/
theorem quotient_near_of_near
    (hstep : step ≤ 2 * fine ∨ step = 4 * fine ∨ 8 * fine ≤ step) (hsmall : step * den < 2 * one)
    (htolerance : tolerance ≤ 5 * fine) (hD : |D| < tolerance) : 2 ^ 31 * |E| ≤ 3 * den := by
  have hone0 : 0 < one := by omega
  have hsum : 2 * (one * |E|) ≤ step * den + 2 * (|D| * den) := by
    have hclose := (abs_le.mp (abs_close hfine hone hden hclose)).1
    linarith
  have hscaled (h : step + 2 * |D| ≤ 12 * fine) : 2 ^ 31 * |E| ≤ 3 * den := by
    refine le_of_mul_le_mul_left ?_ (show 0 < 4 * fine by omega)
    calc 4 * fine * (2 ^ 31 * |E|) = 2 * (one * |E|) := by rw [hone]; ring
      _ ≤ step * den + 2 * (|D| * den) := hsum
      _ = (step + 2 * |D|) * den := by ring
      _ ≤ 12 * fine * den := mul_le_mul_of_nonneg_right h hden.le
      _ = 4 * fine * (3 * den) := by ring
  rcases hstep with hle | heq | hge
  · exact hscaled (by omega)
  · -- The next multiples of the step are within the tolerance, but no others.
    obtain ⟨t, rfl⟩ := hdvd
    have ht : |t| ≤ 1 := by
      by_contra hfar
      have hless : 4 * fine * 2 ≤ |step * t| := by
        rw [abs_mul, heq, abs_of_pos (by omega : 0 < 4 * fine)]
        exact mul_le_mul_of_nonneg_left (by omega) (by omega)
      omega
    refine hscaled ?_
    have hle : |step * t| ≤ 4 * fine * 1 := by
      rw [abs_mul, heq, abs_of_pos (by omega : 0 < 4 * fine)]
      exact mul_le_mul_of_nonneg_left ht (by omega)
    omega
  · -- The whole number itself is the only multiple of the step within the tolerance.
    rw [Int.eq_zero_of_abs_lt_dvd hdvd (by omega), abs_zero, zero_mul, mul_zero, add_zero] at hsum
    have hE : one * |E| < one * 1 := by omega
    have hzero : |E| = 0 := by
      have hless := lt_of_mul_lt_mul_left hE hone0.le
      have hnonneg := abs_nonneg E
      omega
    rw [hzero]
    omega

end Distance

section Verdict

variable {num den k : Nat} {x : Double}

theorem fineUnit_pos : 0 < fineUnit := by
  rw [fineUnit_eq]
  positivity

theorem unitsPerOne_cast : (unitsPerOne : Int) = 2 ^ 32 * (fineUnit : Int) := by
  exact_mod_cast unitsPerOne_fine

theorem multipleTolerance_le_one : Check.multipleTolerance.units ≤ unitsPerOne := by
  have hbounds := multipleTolerance_bounds.2
  rw [unitsPerOne_fine]
  omega

theorem Rounds.step_dvd_one (h : x.Rounds num den (2 ^ k)) (hnum : num < 2 ^ 53) (hden : 0 < den) :
    2 ^ k ∣ unitsPerOne := by
  have hlt : 1 * 2 ^ k < 1 * 2 ^ (1074 + 1) := by
    calc 1 * 2 ^ k ≤ 2 ^ k * den := by
          rw [one_mul]
          exact Nat.le_mul_of_pos_right _ hden
      _ < 2 * unitsPerOne := h.step_small hnum
      _ = 1 * 2 ^ (1074 + 1) := by rw [one_mul, pow_succ 2 1074, ← unitsPerOne_eq, mul_comm]
  have hk : k < 1074 + 1 := lt_of_mul_pow_lt (a := 1) (c := k) (d := 1074 + 1) hlt
  rw [unitsPerOne_eq]
  exact pow_dvd_pow 2 (Nat.le_of_lt_succ hk)

/-- The distance of a rounded quotient from a whole number is counted in steps. -/
theorem Rounds.step_dvd_sub (h : x.Rounds num den (2 ^ k)) (hnum : num < 2 ^ 53) (hden : 0 < den)
    (m : Int) : ((2 ^ k : Nat) : Int) ∣ (x.units : Int) - m * unitsPerOne :=
  dvd_sub (Int.natCast_dvd_natCast.mpr h.step_dvd)
    (Dvd.dvd.mul_left (Int.natCast_dvd_natCast.mpr (h.step_dvd_one hnum hden)) m)

theorem Rounds.isNearWhole_of_near (h : x.Rounds num den (2 ^ k)) (hnum : num < 2 ^ 53)
    (hden : 0 < den) (hnear : ∃ m : Int, 2 ^ 31 * |(num : Int) - m * den| < den) :
    x.isNearWhole Check.multipleTolerance = true := by
  obtain ⟨m, hm⟩ := hnear
  refine (isNearWhole_iff h.finite multipleTolerance_le_one).mpr ⟨m, ?_⟩
  have hstep := pow_fine k
  have htolerance := multipleTolerance_bounds.1
  exact near_of_quotient_near (Int.natCast_pos.mpr fineUnit_pos) unitsPerOne_cast
    (Int.natCast_pos.mpr hden) (h.step_dvd_sub hnum hden m) (h.close m) (by omega) (by omega) hm

theorem Rounds.near_of_isNearWhole (h : x.Rounds num den (2 ^ k)) (hnum : num < 2 ^ 53)
    (hden : 0 < den) (hnear : x.isNearWhole Check.multipleTolerance = true) :
    ∃ m : Int, 2 ^ 31 * |(num : Int) - m * den| ≤ 3 * den := by
  obtain ⟨m, hm⟩ := (isNearWhole_iff h.finite multipleTolerance_le_one).mp hnear
  have hstep := pow_fine k
  have htolerance := multipleTolerance_bounds.2
  exact ⟨m, quotient_near_of_near (Int.natCast_pos.mpr fineUnit_pos) unitsPerOne_cast
    (Int.natCast_pos.mpr hden) (h.step_dvd_sub hnum hden m) (h.close m) (by omega)
    (by exact_mod_cast h.step_small hnum) (by omega) hm⟩

end Verdict

/-! ## Quotients of integral doubles -/

section Integral

variable {x y : Double} {n s : Int}

theorem isZero_of_toInt? (hy : y.toInt? = some s) (hs : s ≠ 0) : y.isZero = false := by
  refine decide_eq_false fun hzero => hs ?_
  have hunits : y.units = 0 := by simp [units, significand, fraction, exponent, hzero]
  rw [(units_of_toInt? hy).2] at hunits
  exact Int.natAbs_eq_zero.mp ((Nat.mul_eq_zero.mp hunits).resolve_right unitsPerOne_pos.ne')

theorem div_of_toInt? (hx : x.toInt? = some n) (hy : y.toInt? = some s) (hs : s ≠ 0) :
    x.div y = nearest (x.negative != y.negative) (n.natAbs * unitsPerOne)
      (s.natAbs * unitsPerOne) := by
  obtain ⟨hxfinite, hxunits⟩ := units_of_toInt? hx
  obtain ⟨hyfinite, hyunits⟩ := units_of_toInt? hy
  rw [← hxunits, ← hyunits, div, isNaN_of_isFinite hxfinite, isNaN_of_isFinite hyfinite, hxfinite,
    hyfinite, isZero_of_toInt? hy hs]
  rfl

/-- The quotient of two integers of at most 53 digits is rounded to 53 digits. -/
theorem div_rounds (hx : x.toInt? = some n) (hy : y.toInt? = some s) (hn : n ≠ 0) (hs : s ≠ 0)
    (hnlt : n.natAbs < 2 ^ 53) (hslt : s.natAbs < 2 ^ 53) :
    ∃ k, (x.div y).Rounds n.natAbs s.natAbs (2 ^ k) := by
  have hbound {a b k : Nat} (ha : a < 2 ^ 53) (hb : b ≠ 0) (hk : 53 ≤ k) : a < b * 2 ^ k := by
    calc a < 1 * 2 ^ 53 := by omega
      _ ≤ b * 2 ^ k := Nat.mul_le_mul (Nat.pos_of_ne_zero hb) (Nat.pow_le_pow_right Nat.two_pos hk)
  have hn0 : n.natAbs ≠ 0 := Int.natAbs_ne_zero.mpr hn
  have hs0 : s.natAbs ≠ 0 := Int.natAbs_ne_zero.mpr hs
  have hone := unitsPerOne_pos
  rw [div_of_toInt? hx hy hs]
  refine ⟨_, (nearest_rounds _ ?_ ?_ ?_ ?_).cancel hone⟩
  · exact Nat.mul_ne_zero hn0 hone.ne'
  · exact Nat.mul_ne_zero hs0 hone.ne'
  · rw [mul_right_comm]
    exact Nat.mul_le_mul_right _ (hbound hslt hn0 (by decide)).le
  · rw [mul_right_comm]
    exact Nat.mul_lt_mul_of_pos_right (hbound hnlt hs0 (by decide)) hone

/-- Signs do not matter for how far a quotient is from a whole number. -/
theorem exists_abs_sub_mul (n s : Int) (P : Int → Prop) :
    (∃ m : Int, P |n - m * s|) ↔ ∃ m : Int, P |(n.natAbs : Int) - m * s.natAbs| := by
  have hn (n s : Int) : (∃ m : Int, P |n - m * s|) ↔ ∃ m : Int, P |-n - m * s| := by
    refine (neg_surjective.exists.trans ?_)
    refine exists_congr fun m => ?_
    rw [← abs_neg (n - -m * s)]
    ring_nf
  have hs (n s : Int) : (∃ m : Int, P |n - m * s|) ↔ ∃ m : Int, P |n - m * -s| := by
    refine (neg_surjective.exists.trans ?_)
    refine exists_congr fun m => ?_
    rw [neg_mul_comm]
  rw [Int.natCast_natAbs, Int.natCast_natAbs]
  rcases abs_choice n with h | h <;> rcases abs_choice s with h' | h' <;> rw [h, h']
  · exact hs n s
  · exact hn n s
  · exact (hn n s).trans (hs (-n) s)

/-- The quotient of zero is whole. -/
theorem isNearWhole_zero_div (hx : x.toInt? = some 0) (hy : y.toInt? = some s) (hs : s ≠ 0) :
    (x.div y).isNearWhole Check.multipleTolerance = true := by
  have hmagnitude : (x.div y).magnitude = 0 := by
    rw [div_of_toInt? hx hy hs, magnitude_nearest, Int.natAbs_zero, zero_mul]
    rfl
  have hunits : (x.div y).units = 0 := by
    simp [units, significand, fraction, exponent, hmagnitude]
  have hfinite : (x.div y).isFinite = true := by
    rw [isFinite, hmagnitude]
    rfl
  refine (isNearWhole_iff hfinite multipleTolerance_le_one).mpr ⟨0, ?_⟩
  have htolerance := multipleTolerance_bounds.1
  have hfine := fineUnit_pos
  rw [hunits, Nat.cast_zero, zero_mul, sub_zero, abs_zero]
  omega

/-- A quotient less than `2 ^ -31` away from a whole number counts as whole. -/
theorem isNearWhole_div_of_near (hx : x.toInt? = some n) (hy : y.toInt? = some s) (hs : s ≠ 0)
    (hnlt : n.natAbs < 2 ^ 53) (hslt : s.natAbs < 2 ^ 53)
    (h : ∃ m : Int, 2 ^ 31 * |n - m * s| < |s|) :
    (x.div y).isNearWhole Check.multipleTolerance = true := by
  by_cases hn : n = 0
  · exact isNearWhole_zero_div (hn ▸ hx) hy hs
  obtain ⟨k, hrounds⟩ := div_rounds hx hy hn hs hnlt hslt
  refine hrounds.isNearWhole_of_near hnlt (Int.natAbs_pos.mpr hs) ?_
  rw [Int.abs_eq_natAbs s] at h
  exact (exists_abs_sub_mul n s fun d => 2 ^ 31 * d < s.natAbs).mp h

/-- A quotient that counts as whole is at most `3 * 2 ^ -31` away from a whole number. -/
theorem near_of_isNearWhole_div (hx : x.toInt? = some n) (hy : y.toInt? = some s) (hs : s ≠ 0)
    (hnlt : n.natAbs < 2 ^ 53) (hslt : s.natAbs < 2 ^ 53)
    (h : (x.div y).isNearWhole Check.multipleTolerance = true) :
    ∃ m : Int, 2 ^ 31 * |n - m * s| ≤ 3 * |s| := by
  by_cases hn : n = 0
  · refine ⟨0, ?_⟩
    rw [hn, zero_mul, sub_zero, abs_zero]
    positivity
  obtain ⟨k, hrounds⟩ := div_rounds hx hy hn hs hnlt hslt
  rw [Int.abs_eq_natAbs s]
  exact (exists_abs_sub_mul n s fun d => 2 ^ 31 * d ≤ 3 * s.natAbs).mpr
    (hrounds.near_of_isNearWhole hnlt (Int.natAbs_pos.mpr hs) h)

end Integral

end Double

namespace Check

/-! ## The verdict on a number -/

theorem isMultiple_number_iff {x y : Double} {s : Int} (hy : y.toInt? = some s) (hs : s ≠ 0) :
    isMultiple (.number x) (.number y) = true ↔
      (x.div y).isNearWhole multipleTolerance = true := by
  rw [isMultiple, Double.isZero_of_toInt? hy hs, Bool.not_false, Bool.true_and]

/-- The integral numbers that pass as multiples of an integral step.  A quotient less than `2 ^ -31`
away from a whole number passes, as that of a multiple does, and one more than `3 * 2 ^ -31` away
does not.  Hence the verdict is exact on steps up to a third of `2 ^ 31`, where it agrees with that
on big integers. -/
theorem multiple_of_number (x y : Double) (n s : Int) (hx : x.toInt? = some n)
    (hy : y.toInt? = some s) (hs : s ≠ 0) (hn : n.natAbs < 2 ^ 53) (hslt : s.natAbs < 2 ^ 53) :
    ((∃ m : Int, 2 ^ 31 * |n - m * s| < |s|) →
      (multiple (.number y)).evaluate (.number x) = .pass) ∧
    ((multiple (.number y)).evaluate (.number x) = .pass →
      ∃ m : Int, 2 ^ 31 * |n - m * s| ≤ 3 * |s|) ∧
    (s ∣ n → (multiple (.number y)).evaluate (.number x) = .pass) ∧
    (3 * |s| < 2 ^ 31 →
      ((multiple (.number y)).evaluate (.number x) = .pass ↔ s ∣ n) ∧
      ((multiple (.number y)).evaluate (.number x) = .pass ↔
        (multiple (.bigint (.clamp s))).evaluate (.bigint (.clamp n)) = .pass)) := by
  rw [evaluate_multiple_pass_iff, isMultiple_number_iff hy hs]
  have hpasses := Double.isNearWhole_div_of_near hx hy hs hn hslt
  have hnear := Double.near_of_isNearWhole_div hx hy hs hn hslt
  have hmultiple (hdvd : s ∣ n) : ∃ m : Int, 2 ^ 31 * |n - m * s| < |s| := by
    obtain ⟨m, rfl⟩ := hdvd
    refine ⟨m, ?_⟩
    rw [mul_comm m, sub_self, abs_zero, mul_zero]
    exact abs_pos.mpr hs
  refine ⟨hpasses, hnear, fun hdvd => hpasses (hmultiple hdvd), fun hfine => ?_⟩
  have hexact : (x.div y).isNearWhole multipleTolerance = true ↔ s ∣ n := by
    refine ⟨fun h => ?_, fun hdvd => hpasses (hmultiple hdvd)⟩
    obtain ⟨m, hm⟩ := hnear h
    have hzero : n - m * s = 0 := abs_eq_zero.mp (by have := abs_nonneg (n - m * s); omega)
    exact ⟨m, by linarith⟩
  refine ⟨hexact, hexact.trans ?_⟩
  have hclamp {k : Int} (hk : k.natAbs < 2 ^ 53) : (Int128.clamp k).val = k :=
    Int128.clamp_val_of_fits (by unfold Int128.bound; omega) (by unfold Int128.bound; omega)
  rw [evaluate_multiple_pass_iff, isMultiple_bigint_iff (.clamp n) rfl]
  rw [hclamp hslt, hclamp hslt, hclamp hn]
  exact (and_iff_right hs).symm

/-- Three divides six, and does not divide seven. -/
theorem six_and_seven_by_three :
    (multiple (.number (.ofInt 3))).evaluate (.number (.ofInt 6)) = .pass ∧
      (multiple (.number (.ofInt 3))).evaluate (.number (.ofInt 7)) ≠ .pass := by
  have hsix : (Double.ofInt 6).toInt? = some 6 := by decide +kernel
  have hseven : (Double.ofInt 7).toInt? = some 7 := by decide +kernel
  have hthree : (Double.ofInt 3).toInt? = some 3 := by decide +kernel
  obtain ⟨-, -, hpass, -⟩ := multiple_of_number (.ofInt 6) (.ofInt 3) 6 3 hsix hthree (by decide)
    (by decide) (by decide)
  obtain ⟨-, -, -, hexact⟩ := multiple_of_number (.ofInt 7) (.ofInt 3) 7 3 hseven hthree (by decide)
    (by decide) (by decide)
  exact ⟨hpass (by decide), fun h => absurd ((hexact (by decide)).1.mp h) (by decide)⟩

/-- Beyond the bound on steps there are numbers that pass and are no multiples.  The first quotient
is a tenth of the tolerance, and the second step is the first one beyond the bound. -/
theorem coarse_steps_pass :
    ((Double.ofInt 1).toInt? = some 1 ∧
      (Double.ofInt 10000000000).toInt? = some 10000000000 ∧
      ¬(10000000000 : Int) ∣ 1 ∧
      (multiple (.number (.ofInt 10000000000))).evaluate (.number (.ofInt 1)) = .pass ∧
      (multiple (.bigint (.clamp 10000000000))).evaluate (.bigint (.clamp 1)) ≠ .pass) ∧
    (Double.ofInt 3002399752978433).toInt? = some 3002399752978433 ∧
      (Double.ofInt 715827883).toInt? = some 715827883 ∧
      ¬(715827883 : Int) ∣ 3002399752978433 ∧
      (multiple (.number (.ofInt 715827883))).evaluate (.number (.ofInt 3002399752978433)) =
        .pass := by
  have hwide : (Double.ofInt 10000000000).toInt? = some 10000000000 := by decide +kernel
  have hleast : (Double.ofInt 715827883).toInt? = some 715827883 := by decide +kernel
  refine ⟨⟨by decide +kernel, hwide, by decide, ?_, ?_⟩, by decide +kernel, hleast, by decide, ?_⟩
  · rw [evaluate_multiple_pass_iff, isMultiple_number_iff hwide (by decide)]
    decide +kernel
  · rw [ne_eq, evaluate_multiple_pass_iff]
    decide +kernel
  · rw [evaluate_multiple_pass_iff, isMultiple_number_iff hleast (by decide)]
    decide +kernel

end Check

end ValueSchema

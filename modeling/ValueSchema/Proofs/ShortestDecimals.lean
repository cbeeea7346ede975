import Mathlib.Tactic.Positivity
import ValueSchema.Double.Reader
import ValueSchema.Proofs.NearestDoubles

/-!
# Shortest decimals

The shortest decimal of a double lies in its interval (`Double.shortest_contains`), and a decimal
that lies there is read as the double (`Double.ofDecimal_of_contains`).  No decimal in the interval
has fewer digits (`Double.shortest_fewest`).

A grid has a point in the interval just when one of the two neighbours of the double lies there
(`Interval.pick_isSome`).  The grid of seventeen digits is so fine that this is always the case.
-/

namespace ValueSchema

namespace Decimal

/-- The exact value. -/
def value (d : Decimal) : ℚ := d.digits * 10 ^ d.exponent

theorem ten_zpow_pos (e : ℤ) : (0 : ℚ) < 10 ^ e := zpow_pos (by norm_num) e

/-- Zeros at the end belong to the exponent. -/
theorem value_trim (fuel : Nat) (d : Decimal) : (trim fuel d).value = d.value := by
  induction fuel generalizing d with
  | zero => rfl
  | succ fuel ih =>
      rw [trim]
      split
      next h =>
          obtain ⟨k, hk⟩ := Nat.dvd_of_mod_eq_zero h.1
          rw [ih, value, value, hk, Nat.mul_div_cancel_left k (by decide),
            zpow_add_one₀ (by norm_num)]
          push_cast
          ring
      next => rfl

theorem digits_trim_le (fuel : Nat) (d : Decimal) : (trim fuel d).digits ≤ d.digits := by
  induction fuel generalizing d with
  | zero => exact le_rfl
  | succ fuel ih =>
      rw [trim]
      split
      · exact (ih _).trans (Nat.div_le_self ..)
      · exact le_rfl

/-- Only one digit of a power of ten is left. -/
theorem digits_trim_pow {fuel n : Nat} (h : n ≤ fuel) (e : ℤ) :
    (trim fuel ⟨10 ^ n, e⟩).digits = 1 := by
  induction n generalizing fuel e with
  | zero =>
      cases fuel with
      | zero => rfl
      | succ fuel => rfl
  | succ n ih =>
      cases fuel with
      | zero => cases h
      | succ fuel =>
          have hzeros : 10 ^ (n + 1) % 10 = 0 ∧ 10 ^ (n + 1) ≠ 0 :=
            ⟨by rw [pow_succ, Nat.mul_mod_left], by positivity⟩
          rw [trim, if_pos hzeros, pow_succ, Nat.mul_div_cancel _ (by decide)]
          exact ih (Nat.le_of_succ_le_succ h) _

/-- The number of digits says between which powers of ten a number lies. -/
theorem digitCount_le_iff {n k : Nat} (hk : 0 < k) : digitCount n ≤ k ↔ n < 10 ^ k :=
  Nat.length_toDigits_le_iff (by decide) hk

theorem digitCount_pos (n : Nat) : 0 < digitCount n := List.length_pos_iff.mpr Nat.toDigits_ne_nil

theorem lt_pow_digitCount (n : Nat) : n < 10 ^ digitCount n :=
  (digitCount_le_iff (digitCount_pos n)).mp le_rfl

theorem pow_digitCount_le {n : Nat} (hn : n ≠ 0) : 10 ^ (digitCount n - 1) ≤ n := by
  rcases Nat.eq_zero_or_pos (digitCount n - 1) with hone | hmore
  · rw [hone, pow_zero]
    exact Nat.pos_of_ne_zero hn
  · refine Nat.le_of_not_lt fun h => ?_
    have hle := (digitCount_le_iff hmore).mpr h
    omega

end Decimal

namespace Double

namespace Interval

variable {i : Interval} {tie : Tie} {e : ℤ} {k n : Nat} {q r s : ℚ}

/-- The double itself. -/
def center (i : Interval) : ℚ := i.mid * 2 ^ ((i.above : ℤ) - 1076)

/-- There are no gaps in the interval. -/
theorem Contains.between (hq : i.Contains q) (hr : i.Contains r) (hqs : q ≤ s) (hsr : s ≤ r) :
    i.Contains s := by
  unfold Contains at *
  split
  next h =>
      rw [if_pos h] at hq hr
      exact ⟨hq.1.trans hqs, hsr.trans hr.2⟩
  next h =>
      rw [if_neg h] at hq hr
      exact ⟨hq.1.trans_le hqs, hsr.trans_lt hr.2⟩

/-- Inside of its ends the interval contains everything. -/
theorem contains_of_lt (hlow : i.low * 2 ^ ((i.above : ℤ) - 1076) < q)
    (hhigh : q < i.high * 2 ^ ((i.above : ℤ) - 1076)) : i.Contains q := by
  unfold Contains
  split
  · exact ⟨hlow.le, hhigh.le⟩
  · exact ⟨hlow, hhigh⟩

/-! ## Grids -/

theorem two_div_half (above : Nat) :
    ((if 1076 ≤ above then 1 <<< (above - 1076) else 1 : Nat) : ℚ) /
      (if 1076 ≤ above then 1 else 1 <<< (1076 - above) : Nat) = 2 ^ ((above : ℤ) - 1076) := by
  split
  next h =>
      rw [Nat.one_shiftLeft, Nat.cast_one, div_one, Nat.cast_pow, Nat.cast_ofNat, ← zpow_natCast,
        Nat.cast_sub h]
      rfl
  next h =>
      rw [Nat.one_shiftLeft, Nat.cast_one, one_div, Nat.cast_pow, Nat.cast_ofNat, ← zpow_natCast,
        ← zpow_neg, Nat.cast_sub (Nat.le_of_not_le h), neg_sub]
      rfl

theorem ten_div_tenth (e : ℤ) :
    ((if 0 ≤ e then Nat.pow 10 e.toNat else 1 : Nat) : ℚ) /
      (if 0 ≤ e then 1 else Nat.pow 10 (-e).toNat : Nat) = 10 ^ e := by
  split
  next h =>
      rw [Nat.cast_one, div_one, Nat.pow_eq, Nat.cast_pow, Nat.cast_ofNat, ← zpow_natCast,
        Int.toNat_of_nonneg h]
  next h =>
      rw [Nat.cast_one, one_div, Nat.pow_eq, Nat.cast_pow, Nat.cast_ofNat, ← zpow_natCast,
        ← zpow_neg, Int.toNat_of_nonneg (by omega), neg_neg]

/-- Quarters and grid points are counted on one scale. -/
theorem grid_scale (i : Interval) (e : ℤ) : ∃ c : ℚ, 0 < c ∧
    ((i.grid e).quarter : ℚ) = 2 ^ ((i.above : ℤ) - 1076) * c ∧
    ((i.grid e).denominator : ℚ) = 10 ^ e * c := by
  have hhalf : 0 < if 1076 ≤ i.above then 1 else 1 <<< (1076 - i.above) := by
    split
    · exact Nat.one_pos
    · exact Nat.one_shiftLeft _ ▸ Nat.two_pow_pos _
  have htenth : 0 < if 0 ≤ e then 1 else Nat.pow 10 (-e).toNat := by
    split
    · exact Nat.one_pos
    · exact Nat.pow_pos (by decide)
  have hhalf' := (Nat.cast_pos (α := ℚ)).mpr hhalf
  have htenth' := (Nat.cast_pos (α := ℚ)).mpr htenth
  refine ⟨_, mul_pos hhalf' htenth', ?_, ?_⟩
  · rw [← two_div_half, ← mul_assoc, div_mul_cancel₀ _ hhalf'.ne', ← Nat.cast_mul]
    rfl
  · rw [← ten_div_tenth, mul_comm ((_ : Nat) : ℚ) (_ : ℚ), ← mul_assoc,
      div_mul_cancel₀ _ htenth'.ne', mul_comm, ← Nat.cast_mul]
    rfl

/-- A number of quarters compares with a grid point as on the grid. -/
theorem grid_le_iff : k * (i.grid e).quarter ≤ n * (i.grid e).denominator ↔
    (k : ℚ) * 2 ^ ((i.above : ℤ) - 1076) ≤ n * 10 ^ e := by
  obtain ⟨c, hc, hquarter, hdenominator⟩ := i.grid_scale e
  rw [← @Nat.cast_le ℚ, Nat.cast_mul, Nat.cast_mul, hquarter, hdenominator, ← mul_assoc,
    ← mul_assoc, mul_le_mul_iff_left₀ hc]

theorem le_grid_iff : n * (i.grid e).denominator ≤ k * (i.grid e).quarter ↔
    n * 10 ^ e ≤ (k : ℚ) * 2 ^ ((i.above : ℤ) - 1076) := by
  obtain ⟨c, hc, hquarter, hdenominator⟩ := i.grid_scale e
  rw [← @Nat.cast_le ℚ, Nat.cast_mul, Nat.cast_mul, hquarter, hdenominator, ← mul_assoc,
    ← mul_assoc, mul_le_mul_iff_left₀ hc]

theorem holds_iff : i.holds (i.grid e) n = true ↔ i.Contains (n * 10 ^ e) := by
  unfold holds Contains
  dsimp only
  split
  · rw [Bool.and_eq_true, decide_eq_true_iff, decide_eq_true_iff, grid_le_iff, le_grid_iff]
  · rw [Bool.and_eq_true, decide_eq_true_iff, decide_eq_true_iff, ← Nat.not_le, ← Nat.not_le,
      grid_le_iff, le_grid_iff, not_le, not_le]

/-- The grid point below the double. -/
def below (i : Interval) (e : ℤ) : Nat := (i.grid e).numerator / (i.grid e).denominator

theorem below_spec (i : Interval) (e : ℤ) :
    i.below e * 10 ^ e ≤ i.center ∧ i.center < (i.below e + 1 : Nat) * 10 ^ e := by
  obtain ⟨c, hc, -, hdenominator⟩ := i.grid_scale e
  have hpos : 0 < (i.grid e).denominator := by
    rw [← @Nat.cast_pos ℚ, hdenominator]
    exact mul_pos (Decimal.ten_zpow_pos e) hc
  have hnumerator : (i.grid e).numerator = i.mid * (i.grid e).quarter := rfl
  constructor
  · refine le_grid_iff.mp ?_
    rw [← hnumerator]
    exact Nat.div_mul_le_self ..
  · refine not_le.mp fun hle => ?_
    have hmul : (i.below e + 1) * (i.grid e).denominator ≤ i.mid * (i.grid e).quarter :=
      le_grid_iff.mpr hle
    rw [← hnumerator, mul_comm] at hmul
    exact absurd (Nat.lt_mul_div_succ _ hpos) (Nat.not_lt.mpr hmul)

/-! ## Neighbours -/

/-- What is picked is a neighbour of the double in the interval, and it is not zero. -/
theorem pick_spec {d : Decimal} (h : i.pick tie e = some d) :
    i.Contains d.value ∧ d.digits ≠ 0 ∧ d.exponent = e ∧ d.digits ≤ i.below e + 1 := by
  have hbelow : i.below e = (i.grid e).numerator / (i.grid e).denominator := rfl
  unfold pick at h
  dsimp only at h
  rw [← hbelow] at h
  split at h
  next hlower hupper =>
      obtain rfl := Option.some.inj h
      rw [Bool.and_eq_true, decide_eq_true_iff] at hlower
      exact ⟨holds_iff.mp hlower.1, hlower.2, rfl, Nat.le_succ _⟩
  next hlower hupper =>
      obtain rfl := Option.some.inj h
      exact ⟨holds_iff.mp hupper, Nat.succ_ne_zero _, rfl, le_rfl⟩
  next hlower hupper =>
      rw [Bool.and_eq_true, decide_eq_true_iff] at hlower
      -- Both neighbours are fine, whichever is taken.
      obtain ⟨upper, rfl⟩ : ∃ upper : Bool,
          d = ⟨if upper then i.below e + 1 else i.below e, e⟩ := ⟨_, (Option.some.inj h).symm⟩
      cases upper with
      | true => exact ⟨holds_iff.mp hupper, Nat.succ_ne_zero _, rfl, le_rfl⟩
      | false => exact ⟨holds_iff.mp hlower.1, hlower.2, rfl, Nat.le_succ _⟩
  next => cases h

theorem pick_isSome (h : i.below e ≠ 0 ∧ i.Contains (i.below e * 10 ^ e) ∨
    i.Contains ((i.below e + 1 : Nat) * 10 ^ e)) : (i.pick tie e).isSome = true := by
  have hbelow : i.below e = (i.grid e).numerator / (i.grid e).denominator := rfl
  rw [← holds_iff, ← holds_iff] at h
  unfold pick
  dsimp only
  rw [← hbelow]
  split
  next => rfl
  next => rfl
  next => rfl
  next hlower hupper =>
      rw [Bool.and_eq_false_iff, decide_eq_false_iff_not, not_not] at hlower
      rcases h with ⟨hne, hholds⟩ | hholds
      · rcases hlower with hlower | hlower
        · rw [hlower] at hholds
          cases hholds
        · exact absurd hlower hne
      · rw [hupper] at hholds
        cases hholds

/-- When a grid has a point in the interval, a neighbour of the double lies there. -/
theorem pick_isSome_of_contains (hcenter : i.Contains i.center) (hfine : 10 ^ e ≤ i.center)
    (h : i.Contains (n * 10 ^ e)) : (i.pick tie e).isSome = true := by
  have hten := Decimal.ten_zpow_pos e
  obtain ⟨hlower, hupper⟩ := i.below_spec e
  have hne : i.below e ≠ 0 := by
    intro hzero
    rw [hzero, zero_add, Nat.cast_one, one_mul] at hupper
    exact absurd hfine hupper.not_ge
  apply pick_isSome
  rcases Nat.lt_or_ge (i.below e) n with hgreater | hless
  · right
    refine hcenter.between h hupper.le ?_
    exact mul_le_mul_of_nonneg_right (Nat.cast_le.mpr hgreater) hten.le
  · left
    refine ⟨hne, h.between hcenter ?_ hlower⟩
    exact mul_le_mul_of_nonneg_right (Nat.cast_le.mpr hless) hten.le

/-- The search stops at the first grid with a neighbour in the interval. -/
theorem search_spec {lead : ℤ} {fuel : Nat} (hk : k < fuel)
    (h : (i.pick tie (lead - (n + k : Nat))).isSome = true) :
    ∃ j ≤ k, i.pick tie (lead - (n + j : Nat)) = some (i.search tie lead fuel n) := by
  induction fuel generalizing n k with
  | zero => cases hk
  | succ fuel ih =>
      rw [search]
      cases hpick : i.pick tie (lead - (n : Nat)) with
      | some d => exact ⟨0, Nat.zero_le k, hpick⟩
      | none =>
          cases k with
          | zero =>
              rw [Nat.add_zero, hpick] at h
              cases h
          | succ k =>
              rw [← Nat.add_assoc, Nat.add_right_comm] at h
              obtain ⟨j, hj, hfound⟩ := ih (Nat.lt_of_succ_lt_succ hk) h
              refine ⟨j + 1, Nat.succ_le_succ hj, ?_⟩
              rw [← Nat.add_assoc, Nat.add_right_comm, hfound]
              rfl

end Interval

/-! ## The interval of a double -/

section Shortest

variable {x : Double} {tie : Tie} {e : ℤ} {q : ℚ}

theorem interval_low_cases (hx : x.significand ≠ 0) :
    (x.interval.low : ℚ) = 4 * x.significand - 2 ∨
      (x.interval.low : ℚ) = 4 * x.significand - 1 ∧ (x.significand : ℚ) = 2 ^ 52 := by
  have hlow : x.interval.low = if x.fraction = 0 ∧ 1 < x.exponent then 4 * x.significand - 1
      else 4 * x.significand - 2 := rfl
  rw [hlow]
  split
  next h =>
      have hfirst : x.significand = 2 ^ 52 := by
        rw [significand, if_neg (by omega), h.1, Nat.one_shiftLeft, add_zero]
      right
      rw [Nat.cast_sub (by omega), hfirst]
      norm_num
  next =>
      left
      rw [Nat.cast_sub (by omega)]
      norm_num

theorem interval_mid (x : Double) : (x.interval.mid : ℚ) = 4 * x.significand := by
  exact_mod_cast (rfl : x.interval.mid = 4 * x.significand)

theorem interval_high (x : Double) : (x.interval.high : ℚ) = 4 * x.significand + 2 := by
  exact_mod_cast (rfl : x.interval.high = 4 * x.significand + 2)

theorem interval_center (x : Double) : x.interval.center = (x.units : ℚ) / unitsPerOne := by
  have hone : (unitsPerOne : ℚ) ≠ 0 := Nat.cast_ne_zero.mpr unitsPerOne_pos.ne'
  show (x.interval.mid : ℚ) * 2 ^ ((x.scaleAbove : ℤ) - 1076) = _
  rw [interval_mid, quarter_eq, units_eq]
  push_cast
  field_simp

theorem interval_contains_center (hx : x.significand ≠ 0) :
    x.interval.Contains x.interval.center := by
  have hquarter : (0 : ℚ) < 2 ^ ((x.interval.above : ℤ) - 1076) := zpow_pos two_pos _
  refine Interval.contains_of_lt ?_ ?_
  · refine mul_lt_mul_of_pos_right ?_ hquarter
    rw [interval_mid]
    rcases interval_low_cases hx with h | ⟨h, -⟩ <;> linarith
  · refine mul_lt_mul_of_pos_right ?_ hquarter
    rw [interval_mid, interval_high]
    linarith

/-- The ends bound what is in the interval, whether they belong to it or not. -/
theorem Interval.Contains.bounds {i : Interval} (h : i.Contains q) :
    i.low * 2 ^ ((i.above : ℤ) - 1076) ≤ q ∧ q ≤ i.high * 2 ^ ((i.above : ℤ) - 1076) := by
  unfold Contains at h
  split at h
  · exact h
  · exact ⟨h.1.le, h.2.le⟩

/-- What is in the interval is not far below the least double. -/
theorem le_of_contains (hx : x.significand ≠ 0) (h : x.interval.Contains q) :
    10 ^ (-331 : ℤ) ≤ q := by
  have hone : (1 : ℚ) ≤ x.significand := Nat.one_le_cast.mpr (Nat.pos_of_ne_zero hx)
  have hlow : (2 : ℚ) ≤ x.interval.low := by
    rcases interval_low_cases hx with h | ⟨h, -⟩ <;> linarith
  have hquarter : (2 : ℚ) ^ (-1076 : ℤ) ≤ 2 ^ ((x.interval.above : ℤ) - 1076) :=
    zpow_le_zpow_right₀ one_le_two (by omega)
  have hpow : ((2 ^ 1075 : Nat) : ℚ) ≤ ((10 ^ 331 : Nat) : ℚ) := Nat.cast_le.mpr (by decide +kernel)
  calc (10 : ℚ) ^ (-331 : ℤ) = ((10 ^ 331 : Nat) : ℚ)⁻¹ := by
        rw [Nat.cast_pow, ← zpow_natCast, ← zpow_neg]
        rfl
    _ ≤ ((2 ^ 1075 : Nat) : ℚ)⁻¹ := inv_anti₀ (by positivity) hpow
    _ = 2 * 2 ^ (-1076 : ℤ) := by
        rw [← zpow_one_add₀ two_ne_zero, Nat.cast_pow, ← zpow_natCast, ← zpow_neg]
        rfl
    _ ≤ (x.interval.low : ℚ) * 2 ^ ((x.interval.above : ℤ) - 1076) :=
        mul_le_mul hlow hquarter (zpow_pos two_pos _).le (by linarith)
    _ ≤ q := h.bounds.1

theorem pos_of_contains (hx : x.significand ≠ 0) (h : x.interval.Contains q) : 0 < q :=
  (Decimal.ten_zpow_pos _).trans_le (le_of_contains hx h)

/-- A grid with seventeen digits for the double has a point in the interval. -/
theorem pick_isSome_of_fine (hx : x.significand ≠ 0)
    (hfine : 10 ^ 16 * 10 ^ e ≤ x.interval.center) : (x.interval.pick tie e).isSome = true := by
  have hcenter : x.interval.center =
      4 * x.significand * 2 ^ ((x.interval.above : ℤ) - 1076) := by
    rw [Interval.center, interval_mid]
  have hbounds : (x.significand : ℚ) ≤ 2 ^ 53 := by exact_mod_cast x.significand_lt.le
  have hlow := interval_low_cases hx
  have hhigh := x.interval_high
  have hstep := Decimal.ten_zpow_pos e
  have hquarter : (0 : ℚ) < 2 ^ ((x.interval.above : ℤ) - 1076) := zpow_pos two_pos _
  obtain ⟨hlower, hupper⟩ := x.interval.below_spec e
  have hne : x.interval.below e ≠ 0 := by
    intro hzero
    rw [hzero, zero_add, Nat.cast_one, one_mul] at hupper
    linarith
  apply Interval.pick_isSome
  rw [Nat.cast_succ] at hupper ⊢
  rw [hcenter] at hfine hlower hupper
  have hcontains := @Interval.contains_of_lt x.interval
  generalize (2 : ℚ) ^ ((x.interval.above : ℤ) - 1076) = quarter at *
  generalize (10 : ℚ) ^ e = step at *
  -- A neighbour is at most half a step away, and half a step is less than the distance to an end.
  have hscaled : x.significand * quarter ≤ 2 ^ 53 * quarter :=
    mul_le_mul_of_nonneg_right hbounds hquarter.le
  have hhalf : step < 4 * quarter := by linarith
  have hend : x.interval.low * quarter < 4 * x.significand * quarter - step / 2 := by
    rcases hlow with h | ⟨h, hfirst⟩
    · rw [h]
      linarith
    · rw [h]
      rw [hfirst] at hfine ⊢
      linarith
  rcases le_total (4 * x.significand * quarter - x.interval.below e * step) (step / 2)
    with hnear | hnear
  · left
    refine ⟨hne, hcontains ?_ ?_⟩
    · linarith
    · rw [hhigh]
      linarith
  · right
    refine hcontains ?_ ?_
    · linarith
    · rw [hhigh]
      linarith

/-! ## The search -/

/-- A positive quotient lies below the power of ten that is read off its digits, and not below the
one before. -/
theorem leadingPower_spec {num den : Nat} (hnum : 0 < num) (hden : 0 < den) :
    (10 : ℚ) ^ (leadingPower num den - 1) ≤ (num : ℚ) / den ∧
      (num : ℚ) / den < 10 ^ leadingPower num den := by
  have hnum' : (0 : ℚ) < num := Nat.cast_pos.mpr hnum
  have hden' : (0 : ℚ) < den := Nat.cast_pos.mpr hden
  have hpos (n : Nat) := Decimal.digitCount_pos n
  have hcast {p : Nat} (hp : 0 < p) : ((p : ℤ) - 1) = ((p - 1 : Nat) : ℤ) := by omega
  unfold leadingPower
  split
  next hle =>
      have hquotient : num / den ≠ 0 := (Nat.div_pos hle hden).ne'
      rw [hcast (hpos _), zpow_natCast, zpow_natCast, le_div_iff₀ hden', div_lt_iff₀ hden']
      constructor
      · exact_mod_cast (Nat.mul_le_mul_right den (Decimal.pow_digitCount_le hquotient)).trans
          (Nat.div_mul_le_self num den)
      · exact_mod_cast (Nat.div_lt_iff_lt_mul hden).mp (Decimal.lt_pow_digitCount _)
  next hless =>
      have hquotient : den / num ≠ 0 := (Nat.div_pos (by omega) hnum).ne'
      have hlow : num * 10 ^ (Decimal.digitCount (den / num) - 1) ≤ den := by
        rw [mul_comm]
        exact (Nat.mul_le_mul_right num (Decimal.pow_digitCount_le hquotient)).trans
          (Nat.div_mul_le_self den num)
      have hhigh : den < num * 10 ^ Decimal.digitCount (den / num) := by
        rw [mul_comm]
        exact (Nat.div_lt_iff_lt_mul hnum).mp (Decimal.lt_pow_digitCount _)
      have hp := hpos (den / num)
      generalize Decimal.digitCount (den / num) = p at *
      cases p with
      | zero => cases hp
      | succ p =>
          have hlow : (num : ℚ) / den ≤ 10 ^ (-(p : ℤ)) := by
            rw [zpow_neg, zpow_natCast, div_le_iff₀ hden', ← div_eq_inv_mul,
              le_div_iff₀ (by positivity)]
            exact_mod_cast hlow
          have hhigh : 10 ^ (-(p : ℤ) - 1) < (num : ℚ) / den := by
            rw [show -(p : ℤ) - 1 = -((p + 1 : Nat) : ℤ) by omega, zpow_neg, zpow_natCast,
              lt_div_iff₀ hden', ← div_eq_inv_mul, div_lt_iff₀ (by positivity)]
            exact_mod_cast hhigh
          dsimp only
          split
          next heq =>
              have hvalue : (num : ℚ) / den = 10 ^ (-(p : ℤ)) := by
                rw [heq, zpow_neg, zpow_natCast, Nat.pow_eq, Nat.add_sub_cancel, Nat.cast_mul,
                  div_mul_cancel_left₀ hnum'.ne']
                norm_num
              rw [hvalue]
              constructor
              · exact zpow_le_zpow_right₀ (by norm_num) (by omega)
              · exact zpow_lt_zpow_right₀ (by norm_num) (by omega)
          next hne =>
              rw [show 1 - ((p + 1 : Nat) : ℤ) = -p by omega]
              refine ⟨hhigh.le, hlow.lt_of_ne fun heq => hne ?_⟩
              rw [zpow_neg, zpow_natCast, div_eq_iff hden'.ne', ← div_eq_inv_mul,
                eq_div_iff (by positivity)] at heq
              exact_mod_cast heq.symm

/-- The power of ten that the double is below. -/
def lead (x : Double) : ℤ := leadingPower x.units unitsPerOne

theorem lead_spec (hx : x.significand ≠ 0) :
    10 ^ (x.lead - 1) ≤ x.interval.center ∧ x.interval.center < 10 ^ x.lead := by
  have hunits : 0 < x.units := by
    rw [units_eq]
    exact Nat.mul_pos (Nat.pos_of_ne_zero hx) (Nat.two_pow_pos _)
  rw [interval_center]
  exact leadingPower_spec hunits unitsPerOne_pos

theorem exists_pick (hx : x.significand ≠ 0) (tie : Tie) :
    (x.interval.pick tie (x.lead - (1 + 16 : Nat))).isSome = true := by
  apply pick_isSome_of_fine hx
  rw [← zpow_natCast, ← zpow_add₀ (by norm_num)]
  exact (zpow_le_zpow_right₀ (by norm_num) (by omega)).trans (lead_spec hx).1

/-- The shortest decimal of a double lies in its interval. -/
theorem shortest_contains (hx : x.significand ≠ 0) (tie : Tie) :
    x.interval.Contains (x.shortest tie).value := by
  obtain ⟨j, -, hfound⟩ := Interval.search_spec (by decide : 16 < 17) (exists_pick hx tie)
  have hshortest : x.shortest tie = (x.interval.search tie x.lead 17 1).trim 20 := rfl
  rw [hshortest, Decimal.value_trim]
  exact (Interval.pick_spec hfound).1

/-- The search finds as few digits as any grid with a neighbour in the interval has. -/
theorem digitCount_shortest_le (hx : x.significand ≠ 0) {k : Nat} (hk : k < 17)
    (h : (x.interval.pick tie (x.lead - (1 + k : Nat))).isSome = true) :
    Decimal.digitCount (x.shortest tie).digits ≤ k + 1 := by
  obtain ⟨j, hj, hfound⟩ := Interval.search_spec hk h
  obtain ⟨-, -, hexponent, hle⟩ := Interval.pick_spec hfound
  have hstep := Decimal.ten_zpow_pos (x.lead - (1 + j : Nat))
  have hbelow : x.interval.below (x.lead - (1 + j : Nat)) < 10 ^ (1 + j) := by
    have hlead : (10 : ℚ) ^ x.lead = 10 ^ (1 + j) * 10 ^ (x.lead - (1 + j : Nat)) := by
      rw [← zpow_natCast, ← zpow_add₀ (by norm_num), add_sub_cancel]
    have hless := (x.interval.below_spec (x.lead - (1 + j : Nat))).1.trans_lt (lead_spec hx).2
    rw [hlead] at hless
    exact_mod_cast (mul_lt_mul_iff_left₀ hstep).mp hless
  have hshortest : x.shortest tie = (x.interval.search tie x.lead 17 1).trim 20 := rfl
  rw [hshortest]
  rcases (hle.trans (Nat.succ_le_of_lt hbelow)).lt_or_eq with hless | heq
  · refine (Decimal.digitCount_le_iff (Nat.succ_pos k)).mpr ?_
    calc _ ≤ (x.interval.search tie x.lead 17 1).digits := Decimal.digits_trim_le ..
      _ < 10 ^ (1 + j) := hless
      _ ≤ 10 ^ (k + 1) := Nat.pow_le_pow_right (by decide) (by omega)
  · -- The upper neighbour may be a power of ten.
    have hpow : x.interval.search tie x.lead 17 1 = ⟨10 ^ (1 + j), x.lead - (1 + j : Nat)⟩ := by
      rw [← heq, ← hexponent]
    rw [hpow, Decimal.digits_trim_pow (by omega)]
    exact Nat.succ_le_succ (Nat.zero_le k)

/-- No decimal in the interval of a double has fewer digits than the shortest one. -/
theorem shortest_fewest (hx : x.significand ≠ 0) (tie : Tie) {digits : Nat} {exponent : ℤ}
    (h : x.interval.Contains (digits * 10 ^ exponent)) :
    Decimal.digitCount (x.shortest tie).digits ≤ Decimal.digitCount digits := by
  have hcount := Decimal.digitCount_pos digits
  have hten : (10 : ℚ) ≠ 0 := by norm_num
  obtain ⟨k, hk⟩ : ∃ k, Decimal.digitCount digits = k + 1 := ⟨_, (Nat.sub_add_cancel hcount).symm⟩
  rcases Nat.lt_or_ge k 17 with hfew | hmany
  · rw [hk]
    refine digitCount_shortest_le hx hfew ?_
    have hcenter := interval_contains_center hx
    obtain ⟨hlow, -⟩ := lead_spec hx
    have hfine : (10 : ℚ) ^ (x.lead - (1 + k : Nat)) ≤ x.interval.center :=
      (zpow_le_zpow_right₀ (by norm_num) (by omega)).trans hlow
    rcases le_or_gt (x.lead - (1 + k : Nat)) exponent with hcoarse | hbelow
    · -- The decimal itself is a point of the grid.
      refine Interval.pick_isSome_of_contains
        (n := digits * 10 ^ (exponent - (x.lead - (1 + k : Nat))).toNat) hcenter hfine ?_
      have hvalue : ((digits * 10 ^ (exponent - (x.lead - (1 + k : Nat))).toNat : Nat) : ℚ) *
          10 ^ (x.lead - (1 + k : Nat)) = digits * 10 ^ exponent := by
        rw [Nat.cast_mul, Nat.cast_pow, Nat.cast_ofNat, ← zpow_natCast,
          Int.toNat_of_nonneg (by omega), mul_assoc, ← zpow_add₀ hten, sub_add_cancel]
      rw [hvalue]
      exact h
    · -- The decimal is below the first power of ten that is not greater than the double.
      refine Interval.pick_isSome_of_contains (n := 10 ^ k) hcenter hfine ?_
      have hvalue : ((10 ^ k : Nat) : ℚ) * 10 ^ (x.lead - (1 + k : Nat)) = 10 ^ (x.lead - 1) := by
        rw [Nat.cast_pow, Nat.cast_ofNat, ← zpow_natCast, ← zpow_add₀ hten]
        congr 1
        omega
      rw [hvalue]
      refine h.between hcenter ?_ hlow
      calc (digits : ℚ) * 10 ^ exponent ≤ 10 ^ ((k + 1 : Nat) : ℤ) * 10 ^ exponent := by
            refine mul_le_mul_of_nonneg_right ?_ (Decimal.ten_zpow_pos _).le
            rw [zpow_natCast, ← hk]
            exact_mod_cast (Decimal.lt_pow_digitCount digits).le
        _ = 10 ^ (((k + 1 : Nat) : ℤ) + exponent) := (zpow_add₀ hten ..).symm
        _ ≤ 10 ^ (x.lead - 1) := zpow_le_zpow_right₀ (by norm_num) (by omega)
  · exact (digitCount_shortest_le hx (by decide) (exists_pick hx tie)).trans (by omega)

/-! ## Reading -/

theorem scaleAbove_le (hfinite : x.isFinite = true) : x.scaleAbove ≤ 2045 := by
  have hmagnitude : x.magnitude < 2047 <<< 52 := of_decide_eq_true hfinite
  have hscale := x.scaleAbove_eq_zero_or
  rw [magnitude_eq, Nat.shiftLeft_eq] at hmagnitude
  omega

/-- What is in the interval of a finite double is not far beyond all of them. -/
theorem lt_of_contains (hfinite : x.isFinite = true) (h : x.interval.Contains q) :
    q < 10 ^ (309 : ℤ) := by
  have hsignificand : (x.significand : ℚ) + 1 ≤ 2 ^ 53 := by exact_mod_cast x.significand_lt
  have hquarter : (2 : ℚ) ^ ((x.interval.above : ℤ) - 1076) ≤ 2 ^ (969 : ℤ) := by
    have hscale : x.interval.above ≤ 2045 := scaleAbove_le hfinite
    exact zpow_le_zpow_right₀ one_le_two (by omega)
  calc q ≤ x.interval.high * 2 ^ ((x.interval.above : ℤ) - 1076) := h.bounds.2
    _ ≤ 2 ^ 55 * 2 ^ (969 : ℤ) := by
        refine mul_le_mul ?_ hquarter (zpow_pos two_pos _).le (by norm_num)
        rw [interval_high]
        linarith
    _ = ((2 ^ 1024 : Nat) : ℚ) := by
        rw [← zpow_natCast, ← zpow_add₀ two_ne_zero, Nat.cast_pow, ← zpow_natCast]
        rfl
    _ < ((10 ^ 309 : Nat) : ℚ) := Nat.cast_lt.mpr (by decide +kernel)
    _ = 10 ^ (309 : ℤ) := by rw [Nat.cast_pow, ← zpow_natCast]; rfl

/-- A decimal in the interval of a double is read as the double. -/
theorem ofDecimal_of_contains (hfinite : x.isFinite = true) (hzero : x.isZero = false)
    {digits : Nat} {exponent : ℤ} (h : x.interval.Contains (digits * 10 ^ exponent)) :
    ofDecimal x.negative digits exponent = x := by
  have hx := significand_ne_zero hzero
  have hten := Decimal.ten_zpow_pos exponent
  have hdigits : digits ≠ 0 := by
    rintro rfl
    have hpos := pos_of_contains hx h
    rw [Nat.cast_zero, zero_mul] at hpos
    exact lt_irrefl _ hpos
  have hlow : (10 : ℚ) ^ ((Decimal.digitCount digits : ℤ) + exponent - 1) ≤
      digits * 10 ^ exponent := by
    have hcount := Decimal.digitCount_pos digits
    rw [show (Decimal.digitCount digits : ℤ) + exponent - 1 =
      ((Decimal.digitCount digits - 1 : Nat) : ℤ) + exponent by omega, zpow_add₀ (by norm_num),
      zpow_natCast]
    refine mul_le_mul_of_nonneg_right ?_ hten.le
    exact_mod_cast Decimal.pow_digitCount_le hdigits
  have hhigh : digits * 10 ^ exponent <
      (10 : ℚ) ^ ((Decimal.digitCount digits : ℤ) + exponent) := by
    rw [zpow_add₀ (by norm_num), zpow_natCast]
    refine mul_lt_mul_of_pos_right ?_ hten
    exact_mod_cast Decimal.lt_pow_digitCount digits
  -- The decimal is neither too large nor too small for a finite double.
  have hnotLarge : ¬ 309 < (Decimal.digitCount digits : ℤ) + exponent := by
    intro hlarge
    have hpow : (10 : ℚ) ^ (309 : ℤ) ≤ digits * 10 ^ exponent :=
      (zpow_le_zpow_right₀ (by norm_num) (by omega)).trans hlow
    exact hpow.not_gt (lt_of_contains hfinite h)
  have hnotSmall : ¬ (Decimal.digitCount digits : ℤ) + exponent < -330 := by
    intro hsmall
    have hpow : digits * 10 ^ exponent < (10 : ℚ) ^ (-331 : ℤ) :=
      hhigh.trans_le (zpow_le_zpow_right₀ (by norm_num) (by omega))
    exact hpow.not_ge (le_of_contains hx h)
  rw [Decimal.digitCount] at hnotLarge hnotSmall
  unfold ofDecimal
  dsimp only
  rw [if_neg hdigits, if_neg hnotLarge, if_neg hnotSmall]
  split
  next hexponent =>
      refine nearest_of_contains hfinite hzero Nat.one_pos ?_
      have hvalue : ((digits * Nat.pow 10 exponent.toNat : Nat) : ℚ) / (1 : Nat) =
          digits * 10 ^ exponent := by
        rw [Nat.cast_one, div_one, Nat.cast_mul, Nat.pow_eq, Nat.cast_pow, Nat.cast_ofNat,
          ← zpow_natCast, Int.toNat_of_nonneg hexponent]
      rw [hvalue]
      exact h
  next hexponent =>
      refine nearest_of_contains hfinite hzero (Nat.pow_pos (by decide)) ?_
      have hvalue : (digits : ℚ) / (Nat.pow 10 (-exponent).toNat : Nat) =
          digits * 10 ^ exponent := by
        rw [Nat.pow_eq, Nat.cast_pow, Nat.cast_ofNat, ← zpow_natCast,
          Int.toNat_of_nonneg (by omega), zpow_neg, div_inv_eq_mul]
      rw [hvalue]
      exact h

/-- The shortest decimal of a double is read as the double. -/
theorem ofDecimal_shortest (hfinite : x.isFinite = true) (hzero : x.isZero = false) (tie : Tie) :
    ofDecimal x.negative (x.shortest tie).digits (x.shortest tie).exponent = x :=
  ofDecimal_of_contains hfinite hzero (shortest_contains (significand_ne_zero hzero) tie)

end Shortest

end Double

end ValueSchema

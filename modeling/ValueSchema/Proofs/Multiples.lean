import Mathlib.Tactic.Linarith
import ValueSchema.Check.Evaluate

/-!
# Multiples among big integers

A big integer is divided by a step with a remainder in 128 bits (`Int128.remainder?`).  The only
quotient of two big integers that does not fit is that of the least one by minus one, and a missing
remainder counts as zero.

The step is a big integer or a double that is whole.  The integer that a double stands for need not
fit, and then the nearest big integer is divided by in its place.
`Check.multiple_of_bigint` says for which steps that finds the multiples of the step.
-/

namespace ValueSchema

/-- The integer that a big integer or a number is, if it is one. -/
def Value.integer? : Value → Option Int
  | .bigint n => some n.val
  | .number x => x.toInt?
  | _ => none

namespace Int128

/-! ## Division in 128 bits -/

/-- The remainder of a division that cuts the quotient off toward zero.  There is none by zero, and
none where the quotient does not fit. -/
def remainder? (n d : Int128) : Option Int128 :=
  if d.val = 0 then none
  else (ofInt? (n.val.tdiv d.val)).bind fun _ => ofInt? (n.val.tmod d.val)

theorem clamp_val_of_fits {s : Int} (hlo : -bound ≤ s) (hhi : s < bound) : (clamp s).val = s := by
  show max (-bound) (min (bound - 1) s) = s
  omega

theorem clamp_val (n : Int128) : clamp n.val = n := by
  have hclamp := ofInt?_val (clamp n.val)
  rw [clamp_val_of_fits n.min_le n.lt_bound, ofInt?_val] at hclamp
  exact (Option.some.inj hclamp).symm

theorem clamp_val_of_bound_le {s : Int} (h : bound ≤ s) : (clamp s).val = bound - 1 := by
  show max (-bound) (min (bound - 1) s) = bound - 1
  unfold bound at *
  omega

theorem clamp_val_of_lt {s : Int} (h : s < -bound) : (clamp s).val = -bound := by
  show max (-bound) (min (bound - 1) s) = -bound
  unfold bound at *
  omega

theorem clamp_val_eq_zero_iff {s : Int} : (clamp s).val = 0 ↔ s = 0 := by
  show max (-bound) (min (bound - 1) s) = 0 ↔ s = 0
  unfold bound
  omega

theorem remainder?_eq_some {n d r : Int128} (h : n.remainder? d = some r) :
    r.val = n.val.tmod d.val := by
  unfold remainder? at h
  split at h
  next => cases h
  next =>
      obtain ⟨q, -, hr⟩ := Option.bind_eq_some_iff.mp h
      exact ofInt?_eq_some_iff.mp hr

theorem natAbs_le (n : Int128) : n.val.natAbs ≤ bound.natAbs := by
  have hlo := n.min_le
  have hhi := n.lt_bound
  unfold bound at *
  omega

/-- A quotient fits unless it is that of the least integer by minus one. -/
theorem tdiv_fits {n d : Int128} (h : ¬(n.val = -bound ∧ d.val = -1)) :
    -bound ≤ n.val.tdiv d.val ∧ n.val.tdiv d.val < bound := by
  have habs : (n.val.tdiv d.val).natAbs ≤ n.val.natAbs := by
    rw [Int.natAbs_tdiv]
    exact Nat.div_le_self _ _
  have hlo := n.min_le
  have hhi := n.lt_bound
  refine ⟨by unfold bound at *; omega, lt_of_not_ge fun hge => h ?_⟩
  -- Only the least integer has that absolute value, and only a unit keeps it.
  have hn : n.val = -bound := by
    unfold bound at *
    omega
  have hunit : d.val.natAbs = 1 := by
    by_contra hd
    have hless : (n.val.tdiv d.val).natAbs < n.val.natAbs := by
      rw [Int.natAbs_tdiv]
      show n.val.natAbs / d.val.natAbs < _
      rcases Nat.eq_zero_or_pos d.val.natAbs with hzero | hpos
      · rw [hzero, Nat.div_zero, hn]
        decide
      · exact Nat.div_lt_self (by rw [hn]; decide) (by omega)
    unfold bound at *
    omega
  refine ⟨hn, ?_⟩
  rcases Int.natAbs_eq d.val with hd | hd
  · rw [hd, hunit, hn] at hge
    exact absurd hge (by decide)
  · rw [hd, hunit]
    rfl

theorem tmod_fits (n : Int128) {d : Int128} (hd : d.val ≠ 0) :
    -bound ≤ n.val.tmod d.val ∧ n.val.tmod d.val < bound := by
  have hless : (n.val.tmod d.val).natAbs < d.val.natAbs := by
    rw [Int.natAbs_tmod]
    exact Nat.mod_lt _ (Int.natAbs_pos.mpr hd)
  have hbound := d.natAbs_le
  unfold bound at *
  omega

/-- The only division of big integers by another one than zero that overflows. -/
theorem remainder?_eq_none_iff {n d : Int128} :
    n.remainder? d = none ↔ d.val = 0 ∨ n.val = -bound ∧ d.val = -1 := by
  unfold remainder?
  split
  next hd => exact ⟨fun _ => .inl hd, fun _ => rfl⟩
  next hd =>
      rw [or_iff_right hd]
      constructor
      · intro hnone
        by_contra hfits
        rw [ofInt?, dif_pos (tdiv_fits hfits), Option.bind_some, ofInt?, dif_pos (tmod_fits n hd)]
          at hnone
        cases hnone
      · rintro ⟨hn, hd⟩
        rw [hn, hd]
        decide

end Int128

namespace Check

/-! ## The verdict on a big integer -/

theorem evaluate_multiple_pass_iff {step v : Value} :
    (multiple step).evaluate v = .pass ↔ isMultiple v step = true := by
  show Verdict.ofBool (isMultiple v step) v = .pass ↔ _
  cases isMultiple v step <;> simp [Verdict.ofBool]

/-- The step counts as the nearest big integer. -/
theorem isMultiple_bigint_iff (n : Int128) {step : Value} {s : Int} (h : step.integer? = some s) :
    isMultiple (.bigint n) step = true ↔ s ≠ 0 ∧ (Int128.clamp s).val ∣ n.val := by
  cases step with
  | bigint d =>
      obtain rfl := Option.some.inj h
      rw [Int128.clamp_val_of_fits d.min_le d.lt_bound, isMultiple, Bool.and_eq_true,
        decide_eq_true_iff, decide_eq_true_iff, Int.dvd_iff_tmod_eq_zero]
  | number x =>
      have h : x.toInt? = some s := h
      rw [isMultiple, h]
      simp only [Bool.and_eq_true, decide_eq_true_iff, Int.dvd_iff_tmod_eq_zero]
  | _ => cases h

/-- A remainder in 128 bits that is missing, or zero, is that of a multiple. -/
theorem remainder_iff_dvd (n d : Int128) (hd : d.val ≠ 0) :
    (∀ r, n.remainder? d = some r → r.val = 0) ↔ d.val ∣ n.val := by
  rw [Int.dvd_iff_tmod_eq_zero]
  cases hr : n.remainder? d with
  | none =>
      obtain ⟨hn, hd⟩ := (Int128.remainder?_eq_none_iff.mp hr).resolve_left hd
      rw [hn, hd]
      exact ⟨fun _ => by decide, fun _ _ => nofun⟩
  | some r =>
      rw [← Int128.remainder?_eq_some hr]
      exact ⟨fun h => h r rfl, fun h r' hr' => Option.some.inj hr' ▸ h⟩

/-- The multiples among big integers of the greatest one. -/
theorem greatest_dvd_iff (n : Int128) :
    Int128.bound - 1 ∣ n.val ↔ n.val = 0 ∨ (n.val.natAbs : Int) = Int128.bound - 1 := by
  have hlo := n.min_le
  have hhi := n.lt_bound
  unfold Int128.bound at *
  omega

/-- The multiples among big integers of the least one. -/
theorem least_dvd_iff (n : Int128) :
    -Int128.bound ∣ n.val ↔ n.val = 0 ∨ n.val = -Int128.bound := by
  have hlo := n.min_le
  have hhi := n.lt_bound
  rw [Int.neg_dvd]
  unfold Int128.bound at *
  omega

/-- The big integers that pass as multiples of a step.  They are the multiples if the step fits 128
bits.  A greater or smaller step lets through what the greatest or the least big integer divides. -/
theorem multiple_of_bigint (n : Int128) (step : Value) (s : Int) (h : step.integer? = some s) :
    (-Int128.bound ≤ s → s < Int128.bound →
      ((multiple step).evaluate (.bigint n) = .pass ↔ s ≠ 0 ∧ s ∣ n.val)) ∧
    (Int128.bound ≤ s →
      ((multiple step).evaluate (.bigint n) = .pass ↔
        n.val = 0 ∨ (n.val.natAbs : Int) = Int128.bound - 1)) ∧
    (s < -Int128.bound →
      ((multiple step).evaluate (.bigint n) = .pass ↔ n.val = 0 ∨ n.val = -Int128.bound)) ∧
    ((multiple step).evaluate (.bigint n) = .pass ↔
      s ≠ 0 ∧ ∀ r, n.remainder? (.clamp s) = some r → r.val = 0) := by
  rw [evaluate_multiple_pass_iff, isMultiple_bigint_iff n h]
  refine ⟨fun hlo hhi => ?_, fun hge => ?_, fun hlt => ?_, and_congr_right fun hs => ?_⟩
  · rw [Int128.clamp_val_of_fits hlo hhi]
  · rw [Int128.clamp_val_of_bound_le hge, greatest_dvd_iff]
    exact and_iff_right fun hs => absurd (hs ▸ hge) (by decide)
  · rw [Int128.clamp_val_of_lt hlt, least_dvd_iff]
    exact and_iff_right fun hs => absurd (hs ▸ hlt) (by decide)
  · exact (remainder_iff_dvd n (.clamp s) fun hzero => hs (Int128.clamp_val_eq_zero_iff.mp hzero)).symm

/-- The least big integer is a multiple of minus one, although the quotient does not fit. -/
theorem least_multiple_of_minus_one :
    (Value.number (.ofInt (-1))).integer? = some (-1) ∧
      (Int128.clamp (-Int128.bound)).remainder? (.clamp (-1)) = none ∧
      (multiple (.number (.ofInt (-1)))).evaluate (.bigint (.clamp (-Int128.bound))) = .pass := by
  have hstep : (Value.number (.ofInt (-1))).integer? = some (-1) := by decide +kernel
  obtain ⟨hfits, -, -, -⟩ :=
    multiple_of_bigint (.clamp (-Int128.bound)) (.number (.ofInt (-1))) (-1) hstep
  refine ⟨hstep, by decide, (hfits (by decide) (by decide)).mpr ⟨by decide, ?_⟩⟩
  exact Int.neg_dvd.mpr (one_dvd _)

/-- A step that does not fit.  The least big integer is a multiple of it and is refused, and the
greatest one is none and passes. -/
theorem first_step_beyond :
    let step : Value := .number (.ofInt Int128.bound)
    let least := Int128.clamp (-Int128.bound)
    let greatest := Int128.clamp Int128.bound
    step.integer? = some Int128.bound ∧
      Int128.bound ∣ least.val ∧ (multiple step).evaluate (.bigint least) ≠ .pass ∧
      ¬Int128.bound ∣ greatest.val ∧ (multiple step).evaluate (.bigint greatest) = .pass := by
  have hstep : (Value.number (.ofInt Int128.bound)).integer? = some Int128.bound := by
    decide +kernel
  refine ⟨hstep, by decide, fun h => ?_, by decide, ?_⟩
  · rw [evaluate_multiple_pass_iff, isMultiple_bigint_iff _ hstep] at h
    exact absurd h.2 (by decide)
  · rw [evaluate_multiple_pass_iff, isMultiple_bigint_iff _ hstep]
    exact ⟨by decide, dvd_refl _⟩

end Check

end ValueSchema

import Mathlib.Tactic.Linarith
import ValueSchema.Double.Basic

/-!
# Rounding of integers

The double nearest to an integer keeps 53 binary digits.  Rounding respects the order of the
integers (`Double.key_ofInt_le`), but larger ones meet: up to `2 ^ 53` no two integers round
to one double (`Double.key_ofInt_injective`), and beyond that neighbours do.
-/

namespace ValueSchema

namespace Double

/-! ## Leading digits -/

/-- The 53 leading binary digits of a natural number, the last one rounded. -/
def leading (n : Nat) : Nat :=
  if 52 ≤ n.log2 then roundQuotient n (1 <<< (n.log2 - 52)) else n <<< (52 - n.log2)

theorem roundQuotient_le_of_le {m n d : Nat} (hd : 0 < d) (h : m ≤ n) :
    roundQuotient m d ≤ roundQuotient n d := by
  have hm := Nat.div_add_mod m d
  have hn := Nat.div_add_mod n d
  have hmlt := Nat.mod_lt m hd
  have hnlt := Nat.mod_lt n hd
  have hq := Nat.div_le_div_right (c := d) h
  unfold roundQuotient
  rcases Nat.lt_or_eq_of_le hq with hlt | heq
  · dsimp only
    split <;> split <;> omega
  · have hr : m % d ≤ n % d := by
      rw [heq] at hm
      omega
    dsimp only
    rw [heq]
    split <;> split <;> omega

/-- Rounding a quotient does not leave an interval with whole ends. -/
theorem roundQuotient_bounds {n d lo hi : Nat} (hd : 0 < d) (hlo : lo * d ≤ n) (hhi : n < hi * d) :
    lo ≤ roundQuotient n d ∧ roundQuotient n d ≤ hi := by
  have hlow : lo ≤ n / d := (Nat.le_div_iff_mul_le hd).mpr hlo
  have hhigh : n / d < hi := (Nat.div_lt_iff_lt_mul hd).mpr hhi
  unfold roundQuotient
  dsimp only
  split <;> omega

theorem roundQuotient_one (n : Nat) : roundQuotient n 1 = n := by
  simp [roundQuotient, Nat.mod_one]

theorem pow_log2_le {n : Nat} (hn : n ≠ 0) : 2 ^ n.log2 ≤ n := Nat.log2_self_le hn

theorem lt_pow_log2 {n : Nat} : n < 2 ^ (n.log2 + 1) := Nat.lt_log2_self

/-- The leading digits of a positive number are 53 digits, or the first number of 54. -/
theorem leading_bounds {n : Nat} (hn : n ≠ 0) : 2 ^ 52 ≤ leading n ∧ leading n ≤ 2 ^ 53 := by
  have hlow := pow_log2_le hn
  have hhigh := lt_pow_log2 (n := n)
  unfold leading
  rw [Nat.one_shiftLeft, Nat.shiftLeft_eq]
  split
  next h =>
    refine roundQuotient_bounds (Nat.two_pow_pos _) ?_ ?_
    · rwa [← pow_add, Nat.add_sub_cancel' h]
    · rwa [← pow_add, show 53 + (n.log2 - 52) = n.log2 + 1 by omega]
  next h =>
    constructor
    · calc 2 ^ 52 = 2 ^ n.log2 * 2 ^ (52 - n.log2) := by rw [← pow_add]; congr 1; omega
        _ ≤ n * 2 ^ (52 - n.log2) := Nat.mul_le_mul_right _ hlow
    · calc n * 2 ^ (52 - n.log2) ≤ 2 ^ (n.log2 + 1) * 2 ^ (52 - n.log2) :=
            Nat.mul_le_mul_right _ hhigh.le
        _ = 2 ^ 53 := by rw [← pow_add]; congr 1; omega

/-- The magnitude of a rounded natural number: its binary length, then its leading digits. -/
theorem nearestMagnitude_one {n : Nat} (hn : n ≠ 0) :
    nearestMagnitude n 1 = min infiniteMagnitude (((n.log2 + 1022) <<< 52) + leading n) := by
  have hone : Nat.log2 1 = 0 := by decide +kernel
  have hgap : ((n.log2 : Int) - (Nat.log2 1 : Nat)) = n.log2 := by simp [hone]
  have habove : scaleAboveOf n 1 = n.log2 + 1022 := by
    unfold scaleAboveOf
    have hreaches : 1 <<< n.log2 ≤ n := by
      rw [Nat.one_shiftLeft]
      exact pow_log2_le hn
    simp only [hgap, Int.natCast_nonneg, if_true, Int.toNat_natCast, hreaches, decide_true]
    omega
  unfold nearestMagnitude leading
  rw [if_neg hn, habove]
  dsimp only
  by_cases h : 52 ≤ n.log2
  · rw [if_pos (by omega : 1074 ≤ n.log2 + 1022), if_pos h,
      show n.log2 + 1022 - 1074 = n.log2 - 52 by omega]
  · rw [if_neg (by omega : ¬ 1074 ≤ n.log2 + 1022), if_neg h,
      show 1074 - (n.log2 + 1022) = 52 - n.log2 by omega, roundQuotient_one]

/-! ## Rounding respects the order -/

theorem log2_le_of_le {m n : Nat} (hm : m ≠ 0) (h : m ≤ n) : m.log2 ≤ n.log2 := by
  have hn : n ≠ 0 := by omega
  rw [Nat.le_log2 hn]
  exact (pow_log2_le hm).trans h

theorem leading_le_of_log2_eq {m n : Nat} (hlog : m.log2 = n.log2) (h : m ≤ n) :
    leading m ≤ leading n := by
  unfold leading
  rw [hlog]
  split
  · exact roundQuotient_le_of_le (by simp [Nat.one_shiftLeft]) h
  · rw [Nat.shiftLeft_eq, Nat.shiftLeft_eq]
    exact Nat.mul_le_mul_right _ h

theorem nearestMagnitude_le_of_le {m n : Nat} (h : m ≤ n) :
    nearestMagnitude m 1 ≤ nearestMagnitude n 1 := by
  by_cases hm : m = 0
  · simp [nearestMagnitude, hm]
  · have hn : n ≠ 0 := by omega
    rw [nearestMagnitude_one hm, nearestMagnitude_one hn]
    refine min_le_min_left _ ?_
    obtain ⟨-, hhigh⟩ := leading_bounds hm
    obtain ⟨hlow, -⟩ := leading_bounds hn
    rw [Nat.shiftLeft_eq, Nat.shiftLeft_eq]
    rcases Nat.lt_or_eq_of_le (log2_le_of_le hm h) with hlt | heq
    · omega
    · have hlead := leading_le_of_log2_eq heq h
      omega

theorem nearestMagnitude_le_infinite (num den : Nat) :
    nearestMagnitude num den ≤ infiniteMagnitude := by
  unfold nearestMagnitude
  split
  · exact Nat.zero_le _
  · exact Nat.min_le_left ..

theorem key_ofMagnitude {negative : Bool} {magnitude : Nat} (h : magnitude < 1 <<< 63) :
    (ofMagnitude negative magnitude).key = if negative then -(magnitude : Int) else magnitude := by
  rw [ofMagnitude, dif_pos h]
  rfl

/-- The key of a rounded integer is the magnitude with the sign of the integer. -/
theorem key_ofInt (n : Int) :
    (ofInt n).key =
      if n < 0 then -(nearestMagnitude n.natAbs 1 : Int) else nearestMagnitude n.natAbs 1 := by
  have hfits : nearestMagnitude n.natAbs 1 < 1 <<< 63 :=
    lt_of_le_of_lt (nearestMagnitude_le_infinite ..) (by decide)
  rw [ofInt, nearest, key_ofMagnitude hfits]
  simp

theorem key_ofInt_le {m n : Int} (h : m ≤ n) : (ofInt m).key ≤ (ofInt n).key := by
  rw [key_ofInt, key_ofInt]
  split <;> split
  next hm hn =>
    have := nearestMagnitude_le_of_le (show n.natAbs ≤ m.natAbs by omega)
    omega
  next => omega
  next => omega
  next hm hn =>
    have := nearestMagnitude_le_of_le (show m.natAbs ≤ n.natAbs by omega)
    omega

/-! ## Integers that are not rounded -/

/-- The digits of a number with at most 53 of them are all kept. -/
theorem leading_of_log2_le {n : Nat} (h : n.log2 ≤ 52) : leading n = n * 2 ^ (52 - n.log2) := by
  unfold leading
  rcases h.lt_or_eq with hlt | heq
  · rw [if_neg (by omega), Nat.shiftLeft_eq]
  · rw [heq, if_pos (le_refl 52)]
    simp [roundQuotient_one]

theorem nearestMagnitude_lt_of_lt {m n : Nat} (h : m < n) (hn : n ≤ 2 ^ 53) :
    nearestMagnitude m 1 < nearestMagnitude n 1 := by
  have hn0 : n ≠ 0 := by omega
  have hlogn : n.log2 ≤ 53 :=
    (Nat.pow_le_pow_iff_right (by decide)).mp ((pow_log2_le hn0).trans hn)
  obtain ⟨hlow, hhigh⟩ := leading_bounds hn0
  have hrange : ((n.log2 + 1022) <<< 52) + leading n ≤ infiniteMagnitude := by
    rw [Nat.shiftLeft_eq, infiniteMagnitude]
    omega
  rw [nearestMagnitude_one hn0, Nat.min_eq_right hrange]
  by_cases hm : m = 0
  · simp only [nearestMagnitude, hm, if_true]
    omega
  · rw [nearestMagnitude_one hm]
    refine lt_of_le_of_lt (Nat.min_le_right ..) ?_
    have hlogm : m.log2 ≤ 52 := by
      have hlt : m.log2 < 53 :=
        (Nat.pow_lt_pow_iff_right (by decide)).mp ((pow_log2_le hm).trans_lt (h.trans_le hn))
      omega
    have hmlt : leading m < 2 ^ 53 := by
      rw [leading_of_log2_le hlogm]
      calc m * 2 ^ (52 - m.log2) < 2 ^ (m.log2 + 1) * 2 ^ (52 - m.log2) :=
            Nat.mul_lt_mul_of_pos_right lt_pow_log2 (Nat.two_pow_pos _)
        _ = 2 ^ 53 := by rw [← pow_add]; congr 1; omega
    rw [Nat.shiftLeft_eq, Nat.shiftLeft_eq]
    rcases (log2_le_of_le hm h.le).lt_or_eq with hlt | heq
    · omega
    · have hlead : leading m < leading n := by
        rw [leading_of_log2_le hlogm, leading_of_log2_le (heq ▸ hlogm), heq]
        exact Nat.mul_lt_mul_of_pos_right h (Nat.two_pow_pos _)
      omega

/-- No two integers up to `2 ^ 53` round to one double. -/
theorem key_ofInt_injective {m n : Int} (hm : m.natAbs ≤ 2 ^ 53) (hn : n.natAbs ≤ 2 ^ 53)
    (h : (ofInt m).key = (ofInt n).key) : m = n := by
  have hpos : ∀ {k : Nat}, k ≤ 2 ^ 53 → k ≠ 0 → 0 < nearestMagnitude k 1 := fun hk h0 => by
    have hlt := nearestMagnitude_lt_of_lt (Nat.pos_of_ne_zero h0) hk
    omega
  have habs : m.natAbs = n.natAbs := by
    rcases lt_trichotomy m.natAbs n.natAbs with hlt | heq | hgt
    · have := nearestMagnitude_lt_of_lt hlt hn
      rw [key_ofInt, key_ofInt] at h
      split at h <;> split at h <;> omega
    · exact heq
    · have := nearestMagnitude_lt_of_lt hgt hm
      rw [key_ofInt, key_ofInt] at h
      split at h <;> split at h <;> omega
  by_contra hne
  have h0 := hpos hm (by omega)
  rw [key_ofInt, key_ofInt, habs] at h
  rw [habs] at h0
  split at h <;> split at h <;> omega

end Double

end ValueSchema

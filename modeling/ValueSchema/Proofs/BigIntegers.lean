import ValueSchema.Proofs.DecimalLiterals
import ValueSchema.Proofs.Multiples
import ValueSchema.Proofs.WholeDoubles

/-!
# Big integers and doubles

A double is made a big integer when its exact value is one (`Schema.bigint_of_number`).  The test
compares with bounds that were rounded to doubles: the least big integer is a double, the greatest
one is rounded up to the least integer that does not fit, and the doubles below that are below the
bound (`Coercion.fitsBigint_iff`).  A big integer that was a double is that double when it is cast.

A document holds a big integer of 64 bits as a number, and a number comes back from a document as a
double.  So a big integer that went through a document is itself, unless it has 64 bits and is no
double; then it is the integer nearby that it was rounded to (`Schema.bigint_through_json`).
-/

namespace ValueSchema

/-! ## Doubles that are big integers -/

namespace Coercion

open Double (toInt? key_lt_iff)

section Number

variable {x : Double} {n : Int128}

/-- The least big integer is a double. -/
theorem toInt?_least : toInt? (.ofInt (-Int128.bound)) = some (-Int128.bound) := by decide +kernel

/-- The greatest big integer is rounded up. -/
theorem toInt?_greatest : toInt? (.ofInt (Int128.bound - 1)) = some Int128.bound := by
  decide +kernel

theorem fitsBigint_iff : fitsBigint x = true ↔ ∃ n : Int128, x.toInt? = some n.val := by
  rw [fitsBigint]
  cases hx : x.toInt? with
  | none =>
      have hfraction : x.isIntegral = false := by simpa [toInt?] using hx
      simp [hfraction]
  | some m =>
      have hwhole : x.isIntegral = true := (Double.toInt?_eq_some_iff_whole.mp hx).1
      -- Both bounds are whole doubles, and these are ordered as the integers are.
      have hlow : (Double.ofInt (-Int128.bound)).order x ≠ .gt ↔ -Int128.bound ≤ m := by
        rw [Double.order, ne_eq, compare_gt_iff_gt, key_lt_iff hx toInt?_least, not_lt]
      have hhigh : x.order (.ofInt (Int128.bound - 1)) = .lt ↔ m < Int128.bound := by
        rw [Double.order, compare_lt_iff_lt, key_lt_iff hx toInt?_greatest]
      simp only [hwhole, Bool.true_and, Bool.and_eq_true, bne_iff_ne, beq_iff_eq, hlow, hhigh,
        Option.some_inj]
      constructor
      · rintro ⟨hle, hlt⟩
        exact ⟨⟨m, hle, hlt⟩, rfl⟩
      · rintro ⟨n, rfl⟩
        exact ⟨n.min_le, n.lt_bound⟩

theorem clamp_toIntWithin (h : x.toInt? = some n.val) :
    Int128.clamp (x.toIntWithin (-Int128.bound) (Int128.bound - 1)) = n := by
  have hfinite := (Double.toInt?_eq_some_iff.mp h).1
  have hwhole : x.whole = n.val := (Double.toInt?_eq_some_iff_whole.mp h).2
  have hlow := n.min_le
  have hhigh := n.lt_bound
  rw [Double.toIntWithin, Double.isNaN_of_isFinite hfinite, if_neg Bool.false_ne_true, hfinite,
    if_pos rfl, hwhole, min_eq_right (by omega), max_eq_right hlow, Int128.clamp_val]

/-- A double is made the big integer that is its exact value, and no other double is made one. -/
theorem numberToBigint?_eq_some_iff :
    numberToBigint? x = some n ↔ x.value? = some (n.val : ℚ) := by
  rw [Double.value?_eq_intCast_iff, numberToBigint?, Option.ite_none_right_eq_some, fitsBigint_iff,
    Option.some_inj]
  constructor
  · rintro ⟨⟨m, hm⟩, rfl⟩
    rwa [clamp_toIntWithin hm]
  · exact fun h => ⟨⟨n, h⟩, clamp_toIntWithin h⟩

end Number

end Coercion

namespace Schema

/-- A double is accepted as a big integer just when its exact value is one, and the big integer is
that value.  Any other double is refused as it is, among them the infinities and what is not a
number.  The big integer cast to a double is the double again, up to the sign of zero. -/
theorem bigint_of_number (mode : Mode) (options : Options) :
    ((coercing .bigint).Makes fun integers => ∀ x,
      options.Truthful integers mode (.number x) →
        (∀ w, (integers.safeParse mode options (.number x)).result = .ok (.success w) ↔
          ∃ n : Int128, x.value? = some (n.val : ℚ) ∧ w = .bigint n) ∧
        ((¬∃ n : Int128, x.value? = some (n.val : ℚ)) →
          ∃ message, (integers.safeParse mode options (.number x)).result = .ok (.failure
            ⟨⟨.invalidType .bigint (Value.number x).kind, .root, message, .number x⟩, []⟩))) ∧
    (coercingAndCasting .bigint).Makes fun numbers => ∀ x,
      options.Truthful numbers mode (.number x) → ∀ n : Int128, x.value? = some (n.val : ℚ) →
        ∃ y, (numbers.safeParse mode options (.number x)).result = .ok (.success (.number y)) ∧
          (y = x ∨ y.isZero = true ∧ x.isZero = true) := by
  constructor
  · intro i x hcache
    obtain ⟨hs, hplain⟩ := coercing_converts (l := .bigint) rfl i
    have hkind : (Value.number x).kind ≠ .bigint := by
      rw [Value.kind]
      split <;> decide
    exact hs.bigint_result_iff hcache hplain hkind rfl fun n => Coercion.numberToBigint?_eq_some_iff
  · intro i x hcache n hx
    obtain ⟨hs, hcasts⟩ := coercingAndCasting_converts (l := .bigint) rfl rfl i
    refine ⟨.ofInt n.val, ?_, Double.equal_ofInt (Double.value?_eq_intCast_iff.mp hx)⟩
    rw [hs.bigint_result hcache (Coercion.numberToBigint?_eq_some_iff.mpr hx), leafOutput, hcasts,
      if_pos rfl]
    rfl

/-- The least big integer is accepted, and the least integer above all of them is not. -/
theorem bigint_of_bounds :
    (((coercing .bigint).run 0).1.safeParse .immediate {} (.number (.ofInt (-Int128.bound)))).result =
        .ok (.success (.bigint (.clamp (-Int128.bound)))) ∧
      (∃ message, (((coercing .bigint).run 0).1.safeParse .immediate {}
          (.number (.ofInt Int128.bound))).result = .ok (.failure
            ⟨⟨.invalidType .bigint .number, .root, message, .number (.ofInt Int128.bound)⟩, []⟩)) ∧
      ∃ y, (((coercingAndCasting .bigint).run 0).1.safeParse .immediate {}
          (.number (.zero true))).result = .ok (.success (.number y)) ∧
        (y = .zero true ∨ y.isZero = true ∧ (Double.zero true).isZero = true) := by
  obtain ⟨hplain, hcasts⟩ := bigint_of_number .immediate {}
  refine ⟨?_, ?_, ?_⟩
  · refine ((hplain 0 _ nofun).1 _).mpr ⟨.clamp (-Int128.bound), ?_, rfl⟩
    exact Double.value?_eq_intCast_iff.mpr (by decide +kernel)
  · refine (hplain 0 _ nofun).2 ?_
    rintro ⟨n, hn⟩
    have hbound : (Double.ofInt Int128.bound).toInt? = some Int128.bound := by decide +kernel
    have hn := Double.value?_eq_intCast_iff.mp hn
    rw [hbound] at hn
    exact absurd n.lt_bound (Option.some.inj hn).not_gt
  · exact hcasts 0 _ nofun (.clamp 0) (Double.value?_eq_intCast_iff.mpr (by decide +kernel))

end Schema

/-! ## Big integers of documents -/

namespace Int128

theorem natAbs_lt_of_fits64 {n : Int128} (h : n.fits64 = true) : n.val.natAbs < 2 ^ 64 := by
  obtain ⟨hlow, hhigh⟩ := of_decide_eq_true h
  unfold bound64 at hlow hhigh
  omega

/-- An integer of 64 bits is rounded to a big integer. -/
theorem exists_value?_ofInt {n : Int128} (h : n.fits64 = true) :
    ∃ m : Int128, (Double.ofInt n.val).value? = some (m.val : ℚ) ∧
      2 ^ 53 * |m.val - n.val| ≤ |n.val| := by
  have hsmall := natAbs_lt_of_fits64 h
  have hgrows : ∀ c, 64 ≤ c → 2 ^ 64 ≤ 2 ^ c := fun c => Nat.pow_le_pow_right Nat.two_pos
  obtain ⟨m, hm, hnear⟩ :=
    Double.exists_toInt?_ofInt (n := n.val) (hsmall.trans_le (hgrows 1023 (by decide)))
  have hfits : -bound ≤ m ∧ m < bound := by
    unfold bound
    rw [Int.abs_eq_natAbs, Int.abs_eq_natAbs] at hnear
    omega
  exact ⟨⟨m, hfits.1, hfits.2⟩, Double.value?_eq_intCast_iff.mpr hm, hnear⟩

/-- An integer that is a double is not rounded. -/
theorem value?_ofInt {n : Int} {x : Double} (h : x.value? = some (n : ℚ)) :
    (Double.ofInt n).value? = some (n : ℚ) := by
  rw [Double.value?_eq_intCast_iff] at h ⊢
  rw [← h]
  exact (Double.toInt?_eq_of_key_eq (Double.key_eq_of_toInt? h)).symm

theorem eq_of_value? {m n : Int128} {x : Double} (hm : (Double.ofInt n.val).value? = some (m.val : ℚ))
    (hx : x.value? = some (n.val : ℚ)) : m = n := by
  have hmn : m.val = n.val := by exact_mod_cast Option.some.inj (hm.symm.trans (value?_ofInt hx))
  rw [← clamp_val m, hmn, clamp_val]

end Int128

theorem Value.ofJson_bigint_of_fits64 {n : Int128} (h : n.fits64 = true) :
    ofJson (Value.bigint n).toJson = .number (.ofInt n.val) := by
  rw [toJson, bigintToJson, h, if_pos rfl, ofJson]

theorem Value.ofJson_bigint_of_long {n : Int128} (h : n.fits64 = false) :
    ofJson (Value.bigint n).toJson = .string (toString n.val) := by
  rw [toJson, bigintToJson, h, if_neg Bool.false_ne_true, ofJson]

namespace Schema

/-- A big integer that went through a document is accepted as a big integer.  It is the same one just
when it does not fit 64 bits or is the exact value of a double, as all are up to `2 ^ 53`.  Otherwise
it is the double nearest to it, which differs in the 53rd binary digit at most. -/
theorem bigint_through_json (mode : Mode) (options : Options) :
    (coercing .bigint).Makes fun integers => ∀ n : Int128,
      options.Truthful integers mode (.ofJson (Value.bigint n).toJson) →
        ∃ m : Int128,
          (integers.safeParse mode options (.ofJson (Value.bigint n).toJson)).result =
            .ok (.success (.bigint m)) ∧
          (m = n ↔ n.fits64 = false ∨ ∃ x : Double, x.value? = some (n.val : ℚ)) ∧
          (|n.val| ≤ 2 ^ 53 → m = n) ∧
          (n.fits64 = true → (Double.ofInt n.val).value? = some (m.val : ℚ)) ∧
          2 ^ 53 * |m.val - n.val| ≤ |n.val| := by
  intro i n hcache
  obtain ⟨hs, hplain⟩ := coercing_converts (l := .bigint) rfl i
  cases hfits : n.fits64 with
  | true =>
      obtain ⟨m, hm, hnear⟩ := Int128.exists_value?_ofInt hfits
      rw [Value.ofJson_bigint_of_fits64 hfits] at hcache ⊢
      refine ⟨m, ?_, ⟨?_, ?_⟩, fun hshort => ?_, fun _ => hm, hnear⟩
      · rw [hs.bigint_result hcache (Coercion.numberToBigint?_eq_some_iff.mpr hm),
          leafOutput_of_plain hplain]
      · rintro rfl
        exact .inr ⟨_, hm⟩
      · rintro (hlong | ⟨x, hx⟩)
        · cases hlong
        · exact Int128.eq_of_value? hm hx
      · exact Int128.eq_of_value? hm (Double.value?_eq_intCast_iff.mpr (Double.toInt?_ofInt hshort))
  | false =>
      rw [Value.ofJson_bigint_of_long hfits] at hcache ⊢
      refine ⟨n, ?_, ?_, fun _ => rfl, fun h => absurd h Bool.false_ne_true, by simp⟩
      · rw [hs.bigint_result hcache (Int128.ofText?_trim_toString n), leafOutput_of_plain hplain]
      · simp

/-- The greatest big integer comes back from a document, which holds its text, and so does an integer
of 64 bits that is a double. -/
theorem greatest_through_json :
    let through (n : Int128) := (((coercing .bigint).run 0).1.safeParse .immediate {}
      (.ofJson (Value.bigint n).toJson)).result
    through (.clamp (Int128.bound - 1)) = .ok (.success (.bigint (.clamp (Int128.bound - 1)))) ∧
      through (.clamp (-Int128.bound64)) = .ok (.success (.bigint (.clamp (-Int128.bound64)))) := by
  constructor
  · obtain ⟨m, hm, hsame, -⟩ :=
      bigint_through_json .immediate {} 0 (.clamp (Int128.bound - 1)) nofun
    rwa [hsame.mpr (.inl (by decide))] at hm
  · obtain ⟨m, hm, hsame, -⟩ :=
      bigint_through_json .immediate {} 0 (.clamp (-Int128.bound64)) nofun
    have hdouble : (Double.ofInt (-Int128.bound64)).toInt? = some (-Int128.bound64) := by
      decide +kernel
    rwa [hsame.mpr (.inr ⟨_, Double.value?_eq_intCast_iff.mpr hdouble⟩)] at hm

/-- The least natural number that is no double comes back as the one below it. -/
theorem bigint_loses_digit :
    (((coercing .bigint).run 0).1.safeParse .immediate {}
        (.ofJson (Value.bigint (.clamp (2 ^ 53 + 1))).toJson)).result =
          .ok (.success (.bigint (.clamp (2 ^ 53)))) ∧
      Int128.clamp (2 ^ 53) ≠ .clamp (2 ^ 53 + 1) := by
  refine ⟨?_, by decide⟩
  obtain ⟨hs, hplain⟩ := coercing_converts (l := .bigint) rfl 0
  have hconverted : Coercion.toBigint? (.ofJson (Value.bigint (.clamp (2 ^ 53 + 1))).toJson) =
      some (.clamp (2 ^ 53)) := by decide +kernel
  rw [← leafOutput_of_plain hplain (.bigint (.clamp (2 ^ 53)))]
  refine hs.bigint_result ?_ hconverted
  exact nofun

end Schema

end ValueSchema

import Mathlib.Data.Prod.Lex
import ValueSchema.Proofs.DoubleText
import ValueSchema.Proofs.Sizes

/-!
# What checks decide

A bound compares two places in a linear order (`Check.evaluate_min`, `Check.evaluate_max`,
`Check.evaluate_range`).  Which order that is depends on the value: that of exact numbers, of
instants, or of sizes, which are exact up to `2 ^ 53` (`Value.order_number`, `Value.order_date`,
`Check.order_measure`).

The checks on numbers and on texts pass all other values.  Of the rest they are stated by the exact
value of a number and by the parts of a text.  What a check that fails reports as received is the
measure for a bound and the value itself otherwise (`Check.received_of_fail`).
-/

namespace ValueSchema

/-! ## The order on numbers, instants and sizes -/

theorem Double.value?_ofInt {n : Int} (h : |n| ≤ 2 ^ 53) : (Double.ofInt n).value? = some (n : ℚ) :=
  Double.value?_eq_intCast_iff.mpr (Double.toInt?_ofInt h)

theorem Double.value?_ofNat {n : Nat} (h : n ≤ 2 ^ 53) : (Double.ofNat n).value? = some (n : ℚ) :=
  Double.value?_ofInt (by rw [Nat.abs_cast]; exact_mod_cast h)

namespace Value

variable {x y : Double} {a b : ℚ}

theorem order_number (hx : x.value? = some a) (hy : y.value? = some b) :
    (number x).order (number y) = compare a b :=
  Double.order_eq_compare hx hy

/-- A big integer that is a double compares with numbers exactly. -/
theorem order_bigint_number {n : Int128} (hn : |n.val| ≤ 2 ^ 53) (hy : y.value? = some b) :
    (bigint n).order (number y) = compare (n.val : ℚ) b :=
  Double.order_eq_compare (Double.value?_ofInt hn) hy

/-- Instants compare by their seconds, and then by their nanoseconds. -/
theorem order_date (t u : Instant) :
    (date t).order (date u) = compare (toLex (t.seconds, t.nanos)) (toLex (u.seconds, u.nanos)) :=
  rfl

end Value

namespace Check

variable {c : Check} {v w : Value} {m n : Nat}

theorem measure_of_size? (h : v.size? = some n) : measure v = .ofNat n := by
  rw [measure, h]
  rfl

/-- The size of a container compares with numbers exactly. -/
theorem order_measure {y : Double} {b : ℚ} (h : v.size? = some n) (hn : n ≤ 2 ^ 53)
    (hy : y.value? = some b) : (measure v).order (.number y) = compare (n : ℚ) b := by
  rw [measure_of_size? h]
  exact Value.order_number (Double.value?_ofNat hn) hy

/-! ## Bounds -/

section Bounds

variable {α : Type} [LinearOrder α] {bound low high : Value} {a b l u : α}

theorem evaluate_min (inclusive : Bool) (h : (measure v).order bound = compare a b) :
    (min bound inclusive).evaluate v =
      if b < a ∨ inclusive = true ∧ a = b then .pass else .fail (measure v) := by
  refine if_congr ?_ rfl rfl
  rw [h, meetsBound, Bool.or_eq_true, Bool.and_eq_true, decide_eq_true_iff, decide_eq_true_iff,
    compare_gt_iff_gt, compare_eq_iff_eq]

theorem evaluate_max (inclusive : Bool) (h : (measure v).order bound = compare a b) :
    (max bound inclusive).evaluate v =
      if a < b ∨ inclusive = true ∧ a = b then .pass else .fail (measure v) := by
  refine if_congr ?_ rfl rfl
  rw [h, meetsBound, Bool.or_eq_true, Bool.and_eq_true, decide_eq_true_iff, decide_eq_true_iff,
    compare_lt_iff_lt, compare_eq_iff_eq]

theorem evaluate_range (hlow : (measure v).order low = compare a l)
    (hhigh : (measure v).order high = compare a u) :
    (range low high).evaluate v = if l ≤ a ∧ a ≤ u then .pass else .fail (measure v) := by
  refine if_congr ?_ rfl rfl
  rw [hlow, hhigh, Bool.and_eq_true, bne_iff_ne, bne_iff_ne, compare_ge_iff_ge, compare_le_iff_le]

/-- A size check compares two numbers of items. -/
theorem evaluate_exactly (hc : c = length n ∨ c = size n) (h : v.size? = some m) (hm : m ≤ 2 ^ 53)
    (hn : n ≤ 2 ^ 53) : c.evaluate v = if m = n then .pass else .fail (.ofNat m) := by
  have horder := order_measure h hm (Double.value?_ofNat hn)
  rw [← measure_of_size? h]
  rcases hc with rfl | rfl
  all_goals
    refine if_congr ?_ rfl rfl
    rw [beq_iff_eq]
    exact (horder ▸ compare_eq_iff_eq).trans Nat.cast_inj

example : (length 3).evaluate (.string "four") = .fail (.ofNat 4) := by rfl

end Bounds

/-! ## Numbers -/

section Numbers

variable {x : Double}

/-- Checks on numbers pass everything else. -/
theorem pass_of_not_number (hc : c.kind ∈ [.integer, .precision, .finite, .safe])
    (hv : v.asNumber? = none) : c.evaluate v = .pass := by
  have hpass (test : Double → Bool) : onNumber v test = .pass := by
    cases v with
    | number x => cases hv
    | _ => rfl
  cases c with
  | integer => exact hpass _
  | precision => exact hpass _
  | finite => exact hpass _
  | safe => exact hpass _
  | _ => simp [kind] at hc

theorem evaluate_finite : finite.evaluate (.number x) = .pass ↔ ∃ a, x.value? = some a := by
  rw [← Option.isSome_iff_exists, Double.value?]
  show Verdict.ofBool x.isFinite _ = _ ↔ _
  rw [ofBool_eq_pass_iff]
  split
  next h => simp [h]
  next h => simp [h]

theorem evaluate_integer :
    integer.evaluate (.number x) = .pass ↔ ∃ n : Int, x.value? = some (n : ℚ) := by
  simp only [Double.value?_eq_intCast_iff, Double.toInt?_eq_some_iff_whole]
  show Verdict.ofBool x.isIntegral _ = _ ↔ _
  rw [ofBool_eq_pass_iff]
  simp

/-- The numbers that are safe lie strictly between `-2 ^ 53` and `2 ^ 53`. -/
theorem evaluate_safe :
    safe.evaluate (.number x) = .pass ↔ ∃ a, x.value? = some a ∧ |a| ≤ 2 ^ 53 - 1 := by
  have hbound : safeBound.toInt? = some (2 ^ 53 - 1) := by
    rw [safeBound, Double.ofNat, show ((1 <<< 53 - 1 : Nat) : Int) = 2 ^ 53 - 1 by decide]
    exact Double.toInt?_ofInt (by decide)
  show Verdict.ofBool (decide (x.magnitude ≤ safeBound.magnitude)) _ = _ ↔ _
  rw [ofBool_eq_pass_iff, decide_eq_true_iff, Double.magnitude_le_iff hbound]
  norm_num

/-- Digits after the point are counted in the plain text.  What is not finite has none. -/
theorem evaluate_precision {n : Nat} : (precision n).evaluate (.number x) = .pass ↔
    ∀ whole part, AllDigits whole → x.isFinite = true →
      x.plainText.toList = (if x.negative then ['-'] else []) ++ pointed whole part →
        part.length ≤ n := by
  show Verdict.ofBool (decide (x.fractionDigits ≤ n)) _ = _ ↔ _
  rw [ofBool_eq_pass_iff, decide_eq_true_iff]
  constructor
  · intro h whole part hwhole hfinite htext
    obtain ⟨whole', part', hwhole', htext', hlength⟩ := Double.plainText_parts hfinite
    rw [htext'] at htext
    rw [← Double.pointed_inj hwhole' hwhole (List.append_cancel_left htext), hlength]
    exact h
  · intro h
    by_cases hfinite : x.isFinite = true
    · obtain ⟨whole, part, hwhole, htext, hlength⟩ := Double.plainText_parts hfinite
      rw [← hlength]
      exact h whole part hwhole hfinite htext
    · rw [Double.fractionDigits, Bool.eq_false_iff.mpr hfinite]
      exact Nat.zero_le n

end Numbers

/-! ## Texts -/

section Texts

variable {s t : String}

/-- Checks on texts pass everything else. -/
theorem pass_of_not_string
    (hc : c.kind ∈ [.pattern, .startsWith, .endsWith, .includes, .email, .url, .uuid])
    (hv : v.asString? = none) : c.evaluate v = .pass := by
  have hpass (test : String → Bool) : onString v test = .pass := by
    cases v with
    | string s => cases hv
    | _ => rfl
  cases c with
  | pattern => exact hpass _
  | startsWith => exact hpass _
  | endsWith => exact hpass _
  | includes => exact hpass _
  | email => exact hpass _
  | url => exact hpass _
  | uuid => exact hpass _
  | _ => simp [kind] at hc

theorem evaluate_startsWith :
    (startsWith s).evaluate (.string t) = .pass ↔ ∃ rest, t = s ++ rest := by
  show Verdict.ofBool (Text.startsWith t s) _ = _ ↔ _
  rw [ofBool_eq_pass_iff, Text.startsWith, List.isPrefixOf_iff_prefix]
  constructor
  · rintro ⟨rest, h⟩
    exact ⟨String.ofList rest, String.toList_injective (by simp [h])⟩
  · rintro ⟨rest, rfl⟩
    exact ⟨rest.toList, by simp⟩

theorem evaluate_endsWith :
    (endsWith s).evaluate (.string t) = .pass ↔ ∃ front, t = front ++ s := by
  show Verdict.ofBool (Text.endsWith t s) _ = _ ↔ _
  rw [ofBool_eq_pass_iff, Text.endsWith, List.isSuffixOf_iff_suffix]
  constructor
  · rintro ⟨front, h⟩
    exact ⟨String.ofList front, String.toList_injective (by simp [h])⟩
  · rintro ⟨front, rfl⟩
    exact ⟨front.toList, by simp⟩

theorem evaluate_includes :
    (includes s).evaluate (.string t) = .pass ↔ ∃ front back, t = front ++ s ++ back := by
  show Verdict.ofBool (Text.contains t s) _ = _ ↔ _
  rw [ofBool_eq_pass_iff, Text.contains, Text.containsChars_iff]
  constructor
  · rintro ⟨front, back, h⟩
    exact ⟨String.ofList front, String.ofList back, String.toList_injective (by simp [← h])⟩
  · rintro ⟨front, back, rfl⟩
    exact ⟨front.toList, back.toList, by simp⟩

end Texts

/-! ## Failures -/

theorem eq_of_ofBool_eq_fail {ok : Bool} {received : Value}
    (h : Verdict.ofBool ok received = .fail w) : w = received := by
  cases ok with
  | false => exact (Verdict.fail.inj h).symm
  | true => cases h

theorem eq_of_onNumber_eq_fail {test : Double → Bool} (h : onNumber v test = .fail w) : w = v := by
  cases v with
  | number x => exact eq_of_ofBool_eq_fail h
  | _ => cases h

theorem eq_of_onString_eq_fail {test : String → Bool} (h : onString v test = .fail w) : w = v := by
  cases v with
  | string s => exact eq_of_ofBool_eq_fail h
  | _ => cases h

/-- A bound reports the measure and any other check the value itself, but for those that compare
items. -/
theorem received_of_fail (hunique : c.kind ≠ .unique) (hsorted : c.kind ≠ .sorted)
    (h : c.evaluate v = .fail w) :
    w = if c.kind ∈ [.min, .max, .range, .length, .size] then measure v else v := by
  cases c with
  | min => exact eq_of_ofBool_eq_fail h
  | max => exact eq_of_ofBool_eq_fail h
  | range => exact eq_of_ofBool_eq_fail h
  | length => exact eq_of_ofBool_eq_fail h
  | size => exact eq_of_ofBool_eq_fail h
  | integer => exact eq_of_onNumber_eq_fail h
  | precision => exact eq_of_onNumber_eq_fail h
  | finite => exact eq_of_onNumber_eq_fail h
  | safe => exact eq_of_onNumber_eq_fail h
  | multiple => exact eq_of_ofBool_eq_fail h
  | pattern => exact eq_of_onString_eq_fail h
  | startsWith => exact eq_of_onString_eq_fail h
  | endsWith => exact eq_of_onString_eq_fail h
  | includes => exact eq_of_onString_eq_fail h
  | email => exact eq_of_onString_eq_fail h
  | url => exact eq_of_onString_eq_fail h
  | uuid => exact eq_of_onString_eq_fail h
  | unique => exact absurd rfl hunique
  | sorted => exact absurd rfl hsorted
  | compact =>
      cases v with
      | array items => cases h
      | _ => cases h
  | custom => exact eq_of_ofBool_eq_fail h

end Check

end ValueSchema

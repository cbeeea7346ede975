import ValueSchema.Double.Text
import ValueSchema.Proofs.Digits
import ValueSchema.Proofs.ShortestDecimals

/-!
# Doubles in text are read again

A finite double is read again from its text in any layout (`Double.ofText?_layoutText`), and so is
any number from its plain text (`Double.ofText?_plainText`).

A text with digits before a point, digits after it and an exponent is read as the decimal of these
digits (`Double.ofUnsigned?_parts`).  Both ways of writing a decimal have this form, and what they
are read as has the value of the decimal (`Decimal.positionalText_parts`,
`Decimal.scientificText_parts`).
-/

namespace ValueSchema

/-- Digits before a point and digits after it, if there are any. -/
def pointed (whole part : List Char) : List Char :=
  whole ++ if part = [] then [] else '.' :: part

namespace Double

variable {x : Double} {negative : Bool}

/-! ## Reading digits -/

/-- A number is read by its parts. -/
theorem ofUnsigned?_parts {whole part tail : List Char} (hwhole : AllDigits whole)
    (hne : whole ≠ []) (hpart : AllDigits part)
    (htail : ∀ c, tail.head? = some c → c.isDigit = false ∧ c ≠ '.') :
    ofUnsigned? negative (pointed whole part ++ tail) = (exponentOf? tail).map fun e =>
      ofDecimal negative (digitsToNat (whole ++ part)) (e - part.length) := by
  have htail' : ∀ c, tail.head? = some c → c.isDigit = false := fun c hc => (htail c hc).1
  unfold ofUnsigned? pointed
  rw [List.append_assoc]
  by_cases hempty : part = []
  · obtain ⟨htake, hdrop⟩ := hwhole.takeWhile htail'
    subst hempty
    rw [if_pos rfl, List.nil_append, htake, hdrop]
    dsimp only
    split
    next r heq => exact absurd rfl (htail '.' rfl).2
    next => exact if_neg fun h => hne h.1
  · obtain ⟨htake, hdrop⟩ := @AllDigits.takeWhile whole ('.' :: (part ++ tail)) hwhole (by simp)
    obtain ⟨htake', hdrop'⟩ := hpart.takeWhile htail'
    rw [if_neg hempty, List.cons_append, htake, hdrop]
    show (if whole = [] ∧ List.takeWhile Char.isDigit (part ++ tail) = [] then none
      else (exponentOf? (List.dropWhile Char.isDigit (part ++ tail))).map fun e =>
        ofDecimal negative (digitsToNat (whole ++ List.takeWhile Char.isDigit (part ++ tail)))
          (e - (List.takeWhile Char.isDigit (part ++ tail)).length)) = _
    rw [htake', hdrop', if_neg (fun h => hne h.1)]

theorem exponentOf?_digits (e : ℤ) :
    exponentOf? ('e' :: (if e < 0 then '-' else '+') :: Nat.toDigits 10 e.natAbs) = some e := by
  have hne : Nat.toDigits 10 e.natAbs ≠ [] := Nat.toDigits_ne_nil
  have hall : (Nat.toDigits 10 e.natAbs).all Char.isDigit = true :=
    List.all_eq_true.mpr (AllDigits.toDigits _)
  split
  next hnegative =>
      show (if _ then some (-(digitsToNat (Nat.toDigits 10 e.natAbs) : ℤ)) else none) = some e
      rw [if_pos ⟨.inl rfl, hne, hall⟩, digitsToNat_toDigits]
      congr 1
      omega
  next hpositive =>
      show (if _ then some (digitsToNat (Nat.toDigits 10 e.natAbs) : ℤ) else none) = some e
      rw [if_pos ⟨.inl rfl, hne, hall⟩, digitsToNat_toDigits]
      congr 1
      omega

theorem toLower_of_isDigit {c : Char} (h : c.isDigit = true) : c.toLower = c := by
  rw [Char.isDigit, Bool.and_eq_true, decide_eq_true_iff, decide_eq_true_iff] at h
  exact dif_neg fun hupper => absurd (UInt32.le_trans hupper.1 h.2) (by decide)

/-- A sign and a number that starts with a digit are read one after the other. -/
theorem ofText?_signed {body : String} {c : Char} {cs : List Char} (hbody : body.toList = c :: cs)
    (hc : c.isDigit = true) :
    ofText? ((if negative then "-" else "") ++ body) = ofUnsigned? negative (c :: cs) := by
  have hsplit : splitSign (((if negative then "-" else "") ++ body).toList) =
      (negative, c :: cs) := by
    rw [String.toList_append, hbody]
    cases negative with
    | true => rfl
    | false =>
        unfold splitSign
        split
        next heq =>
            obtain ⟨rfl, -⟩ := List.cons.inj heq
            cases hc
        next heq =>
            obtain ⟨rfl, -⟩ := List.cons.inj heq
            cases hc
        next => rfl
  have hname (first : Char) (rest : List Char) (hfirst : first.isDigit = false) :
      String.ofList ((c :: cs).map Char.toLower) ≠ String.ofList (first :: rest) := by
    intro heq
    obtain ⟨hlower, -⟩ := List.cons.inj (String.ofList_injective heq)
    rw [toLower_of_isDigit hc] at hlower
    rw [hlower, hfirst] at hc
    cases hc
  unfold ofText?
  rw [hsplit]
  dsimp only
  rw [if_neg, if_neg]
  · exact hname 'n' ['a', 'n'] rfl
  · exact not_or.mpr ⟨hname 'i' ['n', 'f'] rfl, hname 'i' "nfinity".toList rfl⟩

/-! ## Writing decimals -/

/-- Digits before a point and digits after it that stand for a number. -/
structure Spells (whole part : List Char) (q : ℚ) : Prop where
  whole_digits : AllDigits whole
  whole_ne : whole ≠ []
  part_digits : AllDigits part
  value_eq : (digitsToNat (whole ++ part) : ℚ) * 10 ^ (-(part.length : ℤ)) = q

/-- Digits with a point behind the first few of them. -/
theorem spells_take_drop (n : Nat) {k : Nat} (hk : 0 < k) :
    Spells ((Nat.toDigits 10 n).take k) ((Nat.toDigits 10 n).drop k)
      (n * 10 ^ (-((Decimal.digitCount n - k : Nat) : ℤ))) where
  whole_digits _ hc := AllDigits.toDigits n _ (List.mem_of_mem_take hc)
  whole_ne := by simp [Nat.toDigits_ne_nil, hk.ne']
  part_digits _ hc := AllDigits.toDigits n _ (List.mem_of_mem_drop hc)
  value_eq := by
    rw [List.take_append_drop, digitsToNat_toDigits, List.length_drop]
    rfl

/-- A decimal below one, after a zero and a point. -/
theorem spells_small {d : Decimal} (h : d.pointPosition ≤ 0) :
    Spells ['0'] (List.replicate (-d.pointPosition).toNat '0' ++ Nat.toDigits 10 d.digits)
      d.value where
  whole_digits := AllDigits.zeros 1
  whole_ne := List.cons_ne_nil _ _
  part_digits := (AllDigits.zeros _).append (AllDigits.toDigits _)
  value_eq := by
    have hpoint : d.pointPosition = (Nat.toDigits 10 d.digits).length + d.exponent := rfl
    have hlength : -((List.replicate (-d.pointPosition).toNat '0' ++
        Nat.toDigits 10 d.digits).length : ℤ) = d.exponent := by
      rw [List.length_append, List.length_replicate]
      omega
    rw [hlength, ← List.append_assoc, digitsToNat_append]
    show ((digitsToNat (List.replicate _ '0') * _ + _ : Nat) : ℚ) * _ = _
    rw [digitsToNat_zeros, digitsToNat_toDigits, Nat.zero_mul, Nat.zero_add]
    rfl

/-- A whole decimal, with its zeros and maybe one more behind the point. -/
theorem spells_whole {d : Decimal} (h : 0 ≤ d.exponent) (keepsFraction : Bool) :
    Spells (Nat.toDigits 10 d.digits ++ List.replicate d.exponent.toNat '0')
      (List.replicate keepsFraction.toNat '0') d.value where
  whole_digits := (AllDigits.toDigits _).append (AllDigits.zeros _)
  whole_ne := by simp [Nat.toDigits_ne_nil]
  part_digits := AllDigits.zeros _
  value_eq := by
    rw [digitsToNat_append, digitsToNat_append, digitsToNat_zeros, digitsToNat_zeros,
      digitsToNat_toDigits, List.length_replicate, List.length_replicate, Nat.add_zero,
      Nat.add_zero, Nat.cast_mul, Nat.cast_mul, Nat.cast_pow, Nat.cast_pow, Nat.cast_ofNat,
      ← zpow_natCast, ← zpow_natCast, Int.toNat_of_nonneg h, mul_assoc,
      ← zpow_add₀ (by norm_num), add_neg_cancel, zpow_zero, mul_one]
    rfl

/-- A decimal in positional notation is digits, with a point among them, that stand for it. -/
theorem positionalText_parts (keepsFraction : Bool) (d : Decimal) :
    ∃ whole part, Spells whole part d.value ∧
      (positionalText keepsFraction d).toList = pointed whole part ∧
        (keepsFraction = false → part.length = (-d.exponent).toNat) := by
  have hpoint : d.pointPosition = (Nat.toDigits 10 d.digits).length + d.exponent := rfl
  unfold positionalText
  dsimp only
  split
  next hsmall =>
      refine ⟨_, _, spells_small hsmall, ?_, fun _ => ?_⟩
      · rw [pointed, if_neg (by simp)]
        simp
      · rw [List.length_append, List.length_replicate]
        omega
  next hlarge =>
      split
      next hwhole =>
          refine ⟨_, _, spells_whole (by omega) keepsFraction, ?_, ?_⟩
          · have hzeros : d.pointPosition.toNat - (Nat.toDigits 10 d.digits).length =
                d.exponent.toNat := by omega
            rw [hzeros]
            cases keepsFraction <;> simp [pointed]
          · rintro rfl
            rw [List.length_replicate, Bool.toNat_false]
            omega
      next hpart =>
          have hspells := spells_take_drop d.digits (show 0 < d.pointPosition.toNat by omega)
          have hexponent : -((Decimal.digitCount d.digits - d.pointPosition.toNat : Nat) : ℤ) =
              d.exponent := by
            rw [Decimal.digitCount]
            omega
          rw [hexponent] at hspells
          refine ⟨_, _, hspells, ?_, fun _ => ?_⟩
          · rw [pointed, if_neg (by simp; omega)]
            simp
          · rw [List.length_drop]
            omega

/-- A decimal with an exponent is digits with a point behind the first one, and the exponent. -/
theorem scientificText_parts (d : Decimal) : ∃ whole part q, Spells whole part q ∧
    q * 10 ^ (d.pointPosition - 1) = d.value ∧
      (scientificText d).toList = pointed whole part ++ 'e' ::
        (if d.pointPosition - 1 < 0 then '-' else '+') ::
          Nat.toDigits 10 (d.pointPosition - 1).natAbs := by
  have hcount := Decimal.digitCount_pos d.digits
  have hpoint : d.pointPosition = Decimal.digitCount d.digits + d.exponent := rfl
  refine ⟨_, _, _, spells_take_drop d.digits Nat.one_pos, ?_, ?_⟩
  · rw [mul_assoc, ← zpow_add₀ (by norm_num), Decimal.value]
    congr 2
    omega
  · have hpart : (Nat.toDigits 10 d.digits).drop 1 = [] ↔
        (Nat.toDigits 10 d.digits).length ≤ 1 := List.drop_eq_nil_iff
    unfold scientificText pointed
    dsimp only
    rw [String.toList_append, String.toList_append, String.toList_append, String.toList_ofList,
      Nat.toString_eq_repr, Nat.toList_repr]
    by_cases hone : (Nat.toDigits 10 d.digits).length ≤ 1
    · rw [if_pos hone, if_pos (hpart.mpr hone)]
      split <;> simp
    · rw [if_neg hone, if_neg (mt hpart.mp hone)]
      split <;> simp

/-! ## The round trip -/

/-- A double is read from a sign, digits with a point among them and an exponent that stand for a
number in its interval. -/
theorem ofText?_spelled (hfinite : x.isFinite = true) (hzero : x.isZero = false) {body : String}
    {whole part tail : List Char} {q : ℚ} {e : ℤ} (hbody : body.toList = pointed whole part ++ tail)
    (hspells : Spells whole part q)
    (htail : ∀ c, tail.head? = some c → c.isDigit = false ∧ c ≠ '.')
    (hexponent : exponentOf? tail = some e) (h : x.interval.Contains (q * 10 ^ e)) :
    ofText? ((if x.negative then "-" else "") ++ body) = some x := by
  obtain ⟨c, cs, hcs⟩ := List.exists_cons_of_ne_nil hspells.whole_ne
  have hc : c.isDigit = true := hspells.whole_digits c (hcs ▸ List.mem_cons_self ..)
  have hcons : body.toList = c :: (cs ++ (if part = [] then [] else '.' :: part) ++ tail) := by
    rw [hbody, pointed, hcs]
    simp
  have hparts := @ofUnsigned?_parts x.negative _ _ _ hspells.whole_digits hspells.whole_ne
    hspells.part_digits htail
  rw [← hbody, hcons, hexponent, Option.map_some] at hparts
  rw [ofText?_signed hcons hc, hparts, ofDecimal_of_contains hfinite hzero]
  rw [sub_eq_add_neg, add_comm, zpow_add₀ (by norm_num), ← mul_assoc, hspells.value_eq]
  exact h

/-- A zero is read from its digits. -/
theorem ofText?_zero (h : x.isZero = true) (keepsFraction : Bool) :
    ofText? ((if x.negative then "-" else "") ++ if keepsFraction then "0.0" else "0") = some x := by
  have hx : zero x.negative = x := eq_of_magnitude rfl (of_decide_eq_true h).symm
  rw [← hx]
  show ofText? ((if x.negative then "-" else "") ++ _) = _
  cases x.negative <;> cases keepsFraction <;> decide +kernel

/-- A finite double is read again from its text in any layout. -/
theorem ofText?_layoutText (layout : Layout) (hfinite : x.isFinite = true) :
    ofText? (layoutText layout x) = some x := by
  unfold layoutText
  by_cases hzero : x.isZero = true
  · rw [if_pos hzero]
    exact ofText?_zero hzero _
  · have hzero : x.isZero = false := Bool.eq_false_iff.mpr hzero
    have hcontains := shortest_contains (significand_ne_zero hzero) layout.tie
    rw [if_neg (Bool.eq_false_iff.mp hzero)]
    dsimp only
    by_cases hpositional : layout.positional (x.shortest layout.tie).pointPosition = true
    · obtain ⟨whole, part, hspells, htext, -⟩ :=
        positionalText_parts layout.keepsFraction (x.shortest layout.tie)
      have hexponent : exponentOf? [] = some 0 := rfl
      rw [← List.append_nil (pointed whole part)] at htext
      rw [if_pos hpositional]
      refine ofText?_spelled hfinite hzero htext hspells (by simp) hexponent ?_
      rw [zpow_zero, mul_one]
      exact hcontains
    · obtain ⟨whole, part, q, hspells, hvalue, htext⟩ :=
        scientificText_parts (x.shortest layout.tie)
      rw [if_neg hpositional]
      refine ofText?_spelled hfinite hzero htext hspells ?_ (exponentOf?_digits _) ?_
      · simp
      · rw [hvalue]
        exact hcontains

/-- A number is read again from its plain text. -/
theorem ofText?_plainText (h : x.isNaN = false) : ofText? (plainText x) = some x := by
  unfold plainText
  rw [if_neg (Bool.eq_false_iff.mp h)]
  by_cases hfinite : x.isFinite = true
  · rw [if_pos hfinite]
    exact ofText?_layoutText plainLayout hfinite
  · have hmagnitude : x.magnitude = infiniteMagnitude := by
      have hle := Nat.not_lt.mp (of_decide_eq_false h)
      have hge := Nat.not_lt.mp (of_decide_eq_false (Bool.eq_false_iff.mpr hfinite))
      exact Nat.le_antisymm hle hge
    have hx : infinity x.negative = x := eq_of_magnitude rfl hmagnitude.symm
    rw [if_neg hfinite, ← hx]
    show ofText? (if x.negative then "-inf" else "inf") = _
    cases x.negative <;> decide +kernel

/-! ## Digits after the point -/

theorem pointed_inj {whole whole' part part' : List Char} (hwhole : AllDigits whole)
    (hwhole' : AllDigits whole') (h : pointed whole part = pointed whole' part') : part = part' := by
  have hrest (part : List Char) : ∀ c, (if part = [] then [] else '.' :: part).head? = some c →
      c.isDigit = false := by
    intro c hc
    split at hc
    · cases hc
    · obtain rfl := Option.some.inj hc
      rfl
  have hdrop : (if part = [] then [] else '.' :: part) = if part' = [] then [] else '.' :: part' := by
    rw [← (hwhole.takeWhile (hrest part)).2, ← (hwhole'.takeWhile (hrest part')).2]
    exact congrArg _ h
  split at hdrop
  next hnil =>
      split at hdrop
      next hnil' => rw [hnil, hnil']
      next => cases hdrop
  next =>
      split at hdrop
      next => cases hdrop
      next => exact (List.cons.inj hdrop).2

/-- The plain text of a finite double has as many digits after the point as are counted. -/
theorem plainText_parts (hfinite : x.isFinite = true) : ∃ whole part, AllDigits whole ∧
    (plainText x).toList = (if x.negative then ['-'] else []) ++ pointed whole part ∧
      part.length = x.fractionDigits := by
  have hsign : (if x.negative then "-" else "").toList = if x.negative then ['-'] else [] := by
    cases x.negative <;> rfl
  rw [plainText, isNaN_of_isFinite hfinite, if_neg Bool.false_ne_true, if_pos hfinite, layoutText,
    String.toList_append, hsign, fractionDigits, hfinite, Bool.true_and]
  by_cases hzero : x.isZero = true
  · rw [if_pos hzero, hzero]
    exact ⟨['0'], [], AllDigits.zeros 1, rfl, rfl⟩
  · obtain ⟨whole, part, hspells, htext, hlength⟩ :=
      positionalText_parts false (x.shortest plainLayout.tie)
    rw [if_neg hzero, Bool.eq_false_iff.mpr hzero]
    exact ⟨whole, part, hspells.whole_digits, congrArg _ htext, hlength rfl⟩

example : plainText (nearest false 1 (10 ^ 7)) = "0.0000001" := by decide +kernel

example : layoutText jsonLayout (nearest true 15 (10 ^ 8)) = "-1.5e-7" := by decide +kernel

end Double

end ValueSchema

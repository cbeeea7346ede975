import Mathlib.Data.List.Induction
import Mathlib.Data.List.TakeWhile
import Mathlib.Data.Nat.Digits.Defs
import ValueSchema.Proofs.Conversions

/-!
# Decimal literals

A decimal literal is an optional sign and decimal digits, at least one (`Text.IsLiteral`), and a
text denotes an integer when it is a literal of it between white space (`Text.Denotes`).

Reading accepts exactly the literals (`Int128.ofDigits?_eq_some_iff`), and the text of an integer is
one of them (`Text.isLiteral_toString`).  So a big integer is made out of the texts that denote it
and of no others, and comes back from its own text (`Schema.bigint_of_text`).
-/

namespace ValueSchema

namespace Text

/-! ## Literals -/

/-- The number that a decimal digit stands for. -/
def digitValue (c : Char) : Nat := c.toNat - '0'.toNat

/-- The number that decimal digits stand for, the last of them the ones. -/
def decimalValue (ds : List Char) : Nat := Nat.ofDigits 10 (ds.reverse.map digitValue)

/-- Decimal digits, at least one. -/
def IsDigits (ds : List Char) : Prop := ds ≠ [] ∧ ∀ c ∈ ds, c.isDigit = true

theorem isDigits_iff {ds : List Char} : ds ≠ [] ∧ ds.all Char.isDigit = true ↔ IsDigits ds := by
  rw [IsDigits, List.all_eq_true]

/-- A decimal literal and the integer that it denotes. -/
inductive IsLiteral : List Char → Int → Prop where
  | unsigned {ds : List Char} : IsDigits ds → IsLiteral ds (decimalValue ds)
  | plus {ds : List Char} : IsDigits ds → IsLiteral ('+' :: ds) (decimalValue ds)
  | minus {ds : List Char} : IsDigits ds → IsLiteral ('-' :: ds) (-decimalValue ds)

/-- A text denotes an integer when it is a literal of it, without the white space at its ends. -/
def Denotes (text : String) (n : Int) : Prop :=
  ∃ front cs back, text.toList = front ++ cs ++ back ∧ (∀ c ∈ front, isBlank c = true) ∧
    (∀ c ∈ back, isBlank c = true) ∧ IsLiteral cs n

/-! ## White space -/

theorem IsLiteral.ne_nil {cs : List Char} {n : Int} (h : IsLiteral cs n) : cs ≠ [] := by
  cases h with
  | unsigned hds => exact hds.1
  | plus => exact List.cons_ne_nil _ _
  | minus => exact List.cons_ne_nil _ _

/-- There is no white space in a literal. -/
theorem IsLiteral.not_blank {cs : List Char} {n : Int} (h : IsLiteral cs n) :
    ∀ c ∈ cs, isBlank c = false := by
  cases h with
  | unsigned hds => exact fun c hc => isBlank_of_isDigit (hds.2 c hc)
  | plus hds =>
      exact List.forall_mem_cons.mpr ⟨rfl, fun c hc => isBlank_of_isDigit (hds.2 c hc)⟩
  | minus hds =>
      exact List.forall_mem_cons.mpr ⟨rfl, fun c hc => isBlank_of_isDigit (hds.2 c hc)⟩

theorem trimStart_append {front : List Char} (hfront : ∀ c ∈ front, isBlank c = true) {c : Char}
    (hc : isBlank c = false) (cs : List Char) : trimStart (front ++ c :: cs) = c :: cs := by
  rw [trimStart, List.dropWhile_append_of_pos hfront, List.dropWhile_cons_of_neg (by simp [hc])]

/-- White space is trimmed off a literal. -/
theorem toList_trim {text : String} {front cs back : List Char} {n : Int}
    (h : text.toList = front ++ cs ++ back) (hfront : ∀ c ∈ front, isBlank c = true)
    (hback : ∀ c ∈ back, isBlank c = true) (hcs : IsLiteral cs n) : (trim text).toList = cs := by
  have hback' : ∀ c ∈ back.reverse, isBlank c = true := fun c hc => hback c (List.mem_reverse.mp hc)
  obtain ⟨first, rest, hfirst⟩ := List.exists_cons_of_ne_nil hcs.ne_nil
  obtain ⟨last, before, hlast⟩ :=
    List.exists_cons_of_ne_nil (List.reverse_ne_nil_iff.mpr hcs.ne_nil)
  have hstart : trimStart text.toList = cs ++ back := by
    have hblank := hcs.not_blank first (by simp [hfirst])
    rw [h, List.append_assoc, hfirst, List.cons_append]
    exact trimStart_append hfront hblank _
  have hend : trimStart (cs ++ back).reverse = cs.reverse := by
    have hblank := hcs.not_blank last (List.mem_reverse.mp (by simp [hlast]))
    rw [List.reverse_append, hlast]
    exact trimStart_append hback' hblank _
  rw [trim, hstart, hend, List.reverse_reverse, String.toList_ofList]

/-- A text is what is left of it between white space. -/
theorem exists_blanks (text : String) :
    ∃ front back, text.toList = front ++ (trim text).toList ++ back ∧
      (∀ c ∈ front, isBlank c = true) ∧ ∀ c ∈ back, isBlank c = true := by
  have hsplit (cs : List Char) : cs = cs.takeWhile isBlank ++ trimStart cs :=
    List.takeWhile_append_dropWhile.symm
  refine ⟨text.toList.takeWhile isBlank,
    ((trimStart text.toList).reverse.takeWhile isBlank).reverse, ?_, ?_, ?_⟩
  · -- What is trimmed off behind was in front of the reversed text.
    have hend := congrArg List.reverse (hsplit (trimStart text.toList).reverse)
    rw [List.reverse_reverse, List.reverse_append] at hend
    rw [trim, String.toList_ofList, List.append_assoc, ← hend]
    exact hsplit text.toList
  · exact fun c hc => List.mem_takeWhile_imp hc
  · exact fun c hc => List.mem_takeWhile_imp (List.mem_reverse.mp hc)

theorem denotes_iff {text : String} {n : Int} :
    Denotes text n ↔ IsLiteral (trim text).toList n := by
  constructor
  · rintro ⟨front, cs, back, htext, hfront, hback, hcs⟩
    rwa [toList_trim htext hfront hback hcs]
  · intro h
    obtain ⟨front, back, htext, hfront, hback⟩ := exists_blanks text
    exact ⟨front, _, back, htext, hfront, hback, h⟩

end Text

/-! ## Reading and writing -/

namespace Int128

open Text

theorem foldl_digits (ds : List Char) :
    ds.foldl (fun n c => 10 * n + (c.toNat - '0'.toNat)) 0 = decimalValue ds := by
  induction ds using List.reverseRecOn with
  | nil => rfl
  | append_singleton ds c ih =>
      rw [List.foldl_append, ih]
      simp [decimalValue, digitValue, Nat.ofDigits_cons, Nat.add_comm]

theorem ofDigits?_minus (ds : List Char) {n : Int} :
    ofDigits? ('-' :: ds) = some n ↔ IsDigits ds ∧ n = -decimalValue ds := by
  simp only [ofDigits?, foldl_digits]
  rw [Option.ite_none_right_eq_some, isDigits_iff, Option.some_inj, eq_comm (b := n)]
  simp

theorem ofDigits?_plus (ds : List Char) {n : Int} :
    ofDigits? ('+' :: ds) = some n ↔ IsDigits ds ∧ n = decimalValue ds := by
  simp only [ofDigits?, foldl_digits]
  rw [Option.ite_none_right_eq_some, isDigits_iff, Option.some_inj, eq_comm (b := n)]
  simp

theorem ofDigits?_unsigned {cs : List Char} (hminus : ∀ ds, cs ≠ '-' :: ds)
    (hplus : ∀ ds, cs ≠ '+' :: ds) {n : Int} :
    ofDigits? cs = some n ↔ IsDigits cs ∧ n = decimalValue cs := by
  unfold ofDigits?
  split
  next heq =>
      split at heq
      next => exact absurd rfl (hminus _)
      next => exact absurd rfl (hplus _)
      next =>
          obtain ⟨rfl, rfl⟩ := Prod.mk.inj heq
          simp only [foldl_digits]
          rw [Option.ite_none_right_eq_some, isDigits_iff, Option.some_inj, eq_comm (b := n)]
          simp

/-- Reading accepts exactly the literals. -/
theorem ofDigits?_eq_some_iff {cs : List Char} {n : Int} :
    ofDigits? cs = some n ↔ IsLiteral cs n := by
  -- A sign is no digit, so that a text has a literal of one form only.
  have hdigit {c : Char} (hc : c.isDigit = false) (ds : List Char) : ¬IsDigits (c :: ds) :=
    fun hds => absurd (hds.2 c (List.mem_cons_self ..)) (by simp [hc])
  constructor
  · intro h
    by_cases hminus : ∃ ds, cs = '-' :: ds
    · obtain ⟨ds, rfl⟩ := hminus
      obtain ⟨hds, rfl⟩ := (ofDigits?_minus ds).mp h
      exact .minus hds
    by_cases hplus : ∃ ds, cs = '+' :: ds
    · obtain ⟨ds, rfl⟩ := hplus
      obtain ⟨hds, rfl⟩ := (ofDigits?_plus ds).mp h
      exact .plus hds
    obtain ⟨hcs, rfl⟩ := (ofDigits?_unsigned (not_exists.mp hminus) (not_exists.mp hplus)).mp h
    exact .unsigned hcs
  · intro h
    cases h with
    | unsigned hds =>
        refine (ofDigits?_unsigned ?_ ?_).mpr ⟨hds, rfl⟩
        · rintro ds rfl
          exact hdigit rfl ds hds
        · rintro ds rfl
          exact hdigit rfl ds hds
    | plus hds => exact (ofDigits?_plus _).mpr ⟨hds, rfl⟩
    | minus hds => exact (ofDigits?_minus _).mpr ⟨hds, rfl⟩

/-- A text without the white space at its ends is read as a big integer just when it denotes it. -/
theorem ofText?_trim_eq_some_iff {text : String} {n : Int128} :
    ofText? (trim text) = some n ↔ Denotes text n.val := by
  rw [denotes_iff, ofText?, Option.bind_eq_some_iff]
  constructor
  · rintro ⟨m, hm, hn⟩
    rw [ofInt?_eq_some_iff.mp hn]
    exact ofDigits?_eq_some_iff.mp hm
  · exact fun h => ⟨n.val, ofDigits?_eq_some_iff.mpr h, ofInt?_val n⟩

theorem isDigits_toDigits (n : Nat) : IsDigits (Nat.toDigits 10 n) :=
  ⟨Nat.toDigits_ne_nil, fun _ => Nat.isDigit_of_mem_toDigits (by decide) (by decide)⟩

theorem decimalValue_toDigits (n : Nat) : decimalValue (Nat.toDigits 10 n) = n := by
  rw [← foldl_digits]
  exact Nat.ofDigitChars_ten_toDigits

/-- An integer is written as a literal of it. -/
theorem isLiteral_toString (n : Int) : IsLiteral (toString n).toList n := by
  cases n with
  | ofNat n =>
      have h := IsLiteral.unsigned (isDigits_toDigits n)
      rwa [decimalValue_toDigits, ← Nat.toList_repr] at h
  | negSucc n =>
      have h := IsLiteral.minus (isDigits_toDigits (n + 1))
      rw [decimalValue_toDigits, ← Nat.toList_repr] at h
      show IsLiteral ("-" ++ Nat.repr (n + 1)).toList _
      rwa [String.toList_append]

theorem denotes_toString (n : Int) : Denotes (toString n) n :=
  ⟨[], _, [], by simp, nofun, nofun, isLiteral_toString n⟩

theorem ofText?_trim_toString (n : Int128) : ofText? (trim (toString n.val)) = some n :=
  ofText?_trim_eq_some_iff.mpr (denotes_toString n.val)

end Int128

/-! ## Big integers of texts -/

namespace Schema

open Text

/-- A big integer is made out of a text that denotes it, between white space, and of no other text:
an integer that does not fit is refused like any other text, and the issue holds the text as it
was.  A big integer that was made a text comes back from it. -/
theorem bigint_of_text (mode : Mode) (options : Options) :
    ((coercing .bigint).Makes fun integers => ∀ text,
      options.Truthful integers mode (.string text) →
        (∀ w, (integers.safeParse mode options (.string text)).result = .ok (.success w) ↔
          ∃ n : Int128, Denotes text n.val ∧ w = .bigint n) ∧
        ((¬∃ n : Int128, Denotes text n.val) →
          ∃ message, (integers.safeParse mode options (.string text)).result =
            .ok (.failure ⟨⟨.invalidType .bigint .string, .root, message, .string text⟩, []⟩))) ∧
    (coercing .string).Makes fun texts => (coercing .bigint).Makes fun integers => ∀ n : Int128,
      options.Truthful texts mode (.bigint n) →
        ∃ text, (texts.safeParse mode options (.bigint n)).result = .ok (.success (.string text)) ∧
          (options.Truthful integers mode (.string text) →
            (integers.safeParse mode options (.string text)).result =
              .ok (.success (.bigint n))) := by
  constructor
  · intro i text hcache
    obtain ⟨hs, hplain⟩ := coercing_converts (l := .bigint) rfl i
    exact hs.bigint_result_iff hcache hplain nofun rfl fun n => Int128.ofText?_trim_eq_some_iff
  · intro i j n hcache
    obtain ⟨htexts, hplain⟩ := coercing_converts (l := .string) rfl i
    obtain ⟨hintegers, hplain'⟩ := coercing_converts (l := .bigint) rfl j
    refine ⟨toString n.val, ?_, fun hcache' => ?_⟩
    · rw [htexts.result hcache ⟨_, rfl⟩, leafOutput_of_plain hplain]
      rfl
    · rw [hintegers.bigint_result hcache' (Int128.ofText?_trim_toString n),
        leafOutput_of_plain hplain']

/-- Zeros in front and a sign are part of a literal, and white space around it is not. -/
theorem bigint_of_padded_text :
    (((coercing .bigint).run 0).1.safeParse .immediate {} (.string "\u3000-0012\n")).result =
        .ok (.success (.bigint (.clamp (-12)))) ∧
      ∃ text, (((coercing .string).run 1).1.safeParse .immediate {}
          (.bigint (.clamp (-Int128.bound)))).result = .ok (.success (.string text)) ∧
        (((coercing .bigint).run 0).1.safeParse .immediate {} (.string text)).result =
          .ok (.success (.bigint (.clamp (-Int128.bound)))) := by
  obtain ⟨hread, hback⟩ := bigint_of_text .immediate {}
  constructor
  · refine ((hread 0 _ nofun).1 _).mpr ⟨.clamp (-12), ?_, rfl⟩
    exact ⟨['\u3000'], "-0012".toList, ['\n'], rfl, List.forall_mem_singleton.mpr rfl,
      List.forall_mem_singleton.mpr rfl, .minus (isDigits_iff.mp (by decide))⟩
  · obtain ⟨text, htext, hsame⟩ := hback 1 0 (.clamp (-Int128.bound)) nofun
    exact ⟨text, htext, hsame nofun⟩

end Schema

end ValueSchema

import Mathlib.Data.List.Forall2
import ValueSchema.Proofs.Items

/-!
# Values with the keys of objects in another order

`Value.Rearranged` relates two values that are the same up to the order of keys, at any
depth.  Nothing that reads a value sees the difference: not equality
(`Rearranged.equal_congr`), not the order of values (`Rearranged.order_congr`), and no check
that neither rewrites nor asks a function of the user's (`Rearranged.evaluate_eq_pass_iff`).
-/

namespace ValueSchema

namespace Value

/-- The same value up to the order of the keys of objects. -/
inductive Rearranged : Value → Value → Prop where
  | refl (v : Value) : Rearranged v v
  | array {as bs : List Value} :
      as.length = bs.length →
      (∀ (i : Nat) (a b : Value), as[i]? = some a → bs[i]? = some b → Rearranged a b) →
      Rearranged (.array as) (.array bs)
  | object {as bs : Entries Value} :
      as.keys.Nodup → as.keys.Perm bs.keys →
      (∀ (k : String) (a b : Value), as.get? k = some a → bs.get? k = some b → Rearranged a b) →
      Rearranged (.object as) (.object bs)

namespace Rearranged

variable {a b : Value}

theorem symm (h : Rearranged a b) : Rearranged b a := by
  induction h with
  | refl v => exact .refl v
  | array hl _ ih => exact .array hl.symm fun i a b ha hb => ih i b a hb ha
  | object hn hp _ ih =>
      exact .object (hp.nodup_iff.mp hn) hp.symm fun k a b ha hb => ih k b a hb ha

theorem isUndefined_eq (h : Rearranged a b) : a.isUndefined = b.isUndefined := by
  cases h <;> rfl

/-- Only texts are related to texts. -/
theorem eq_of_string {s : String} (h : Rearranged (.string s) b) : b = .string s := by
  cases h
  rfl

theorem eq_of_undefined (h : Rearranged .undefined b) : b = .undefined := by
  cases h
  rfl

theorem eq_of_null (h : Rearranged .null b) : b = .null := by
  cases h
  rfl

theorem size_eq {as bs : Entries Value} (h : as.keys.Perm bs.keys) : as.size = bs.size := by
  have hlen := h.length_eq
  rwa [Entries.keys, Entries.keys, List.length_map, List.length_map] at hlen

/-- Keys in another order have a value under the same keys. -/
theorem get?_isSome_eq {as bs : Entries Value} (h : as.keys.Perm bs.keys) (k : String) :
    (as.get? k).isSome = (bs.get? k).isSome := by
  have hkey : as.hasKey k = bs.hasKey k := by
    rw [Bool.eq_iff_iff, Entries.hasKey_iff, Entries.hasKey_iff, h.mem_iff]
  exact hkey

theorem get?_eq_none_iff {as bs : Entries Value} (h : as.keys.Perm bs.keys) (k : String) :
    as.get? k = none ↔ bs.get? k = none := by
  rw [← Option.isNone_iff_eq_none, ← Option.isNone_iff_eq_none, ← Option.not_isSome,
    ← Option.not_isSome, get?_isSome_eq h]

/-- A value under a key has a counterpart. -/
theorem exists_get? {as bs : Entries Value} (h : as.keys.Perm bs.keys) {k : String} {a : Value}
    (ha : as.get? k = some a) : ∃ b, bs.get? k = some b := by
  rw [← Option.isSome_iff_exists, ← get?_isSome_eq h, ha]
  rfl

theorem forall₂_items {R : Value → Value → Prop} {as bs : List Value} (hl : as.length = bs.length)
    (h : ∀ (i : Nat) (a b : Value), as[i]? = some a → bs[i]? = some b → R a b) :
    List.Forall₂ R as bs := by
  refine List.forall₂_iff_get.mpr ⟨hl, fun i ha hb => ?_⟩
  exact h i _ _ (List.getElem?_eq_getElem ha) (List.getElem?_eq_getElem hb)

/-! ## Equality -/

theorem equalItems_left {as bs : List Value} (h : List.Forall₂ (fun a b => equal a = equal b) as bs) :
    ∀ cs, equalItems as cs = equalItems bs cs := by
  induction h with
  | nil => exact fun _ => rfl
  | cons hab _ ih =>
      intro cs
      cases cs with
      | nil => rfl
      | cons c cs => rw [equalItems, equalItems, hab, ih]

theorem equalItems_right {as bs : List Value}
    (h : List.Forall₂ (fun a b => ∀ c, equal c a = equal c b) as bs) :
    ∀ cs, equalItems cs as = equalItems cs bs := by
  induction h with
  | nil => exact fun _ => rfl
  | cons hab _ ih =>
      intro cs
      cases cs with
      | nil => rfl
      | cons c cs => rw [equalItems, equalItems, hab, ih]

/-- Entries are found again when each value equals the one under its key. -/
theorem equalEntries_iff {bs : Entries Value} :
    ∀ {as : List (String × Value)}, (as.map Prod.fst).Nodup →
      (equalEntries as bs = true ↔
        ∀ k a, Entries.get? ⟨as⟩ k = some a → (bs.get? k).any (equal a) = true)
  | [], _ => by simp [equalEntries, Entries.get?]
  | (k, a) :: as, hn => by
      obtain ⟨hk, hn⟩ := List.nodup_cons.mp hn
      rw [equalEntries, Bool.and_eq_true, equalEntries_iff hn]
      have hget : ∀ j, Entries.get? ⟨(k, a) :: as⟩ j =
          if k = j then some a else Entries.get? ⟨as⟩ j := by
        intro j
        show List.lookup j ((k, a) :: as) = _
        rw [List.lookup_cons]
        by_cases hj : k = j
        · simp [hj]
        · have hb : (j == k) = false := by simp [Ne.symm hj]
          simp [hb, hj, Entries.get?]
      have hnone : Entries.get? ⟨as⟩ k = none := (Entries.get?_eq_none_iff ⟨as⟩ k).mpr hk
      constructor
      · rintro ⟨hhead, htail⟩ j x hx
        rw [hget] at hx
        split at hx
        next hj => exact Option.some.inj hx ▸ hj ▸ hhead
        next => exact htail j x hx
      · intro h
        refine ⟨h k a (by rw [hget, if_pos rfl]), fun j x hx => h j x ?_⟩
        rw [hget, if_neg, hx]
        rintro rfl
        cases hnone.symm.trans hx

theorem equal_object {as bs : Entries Value} :
    equal (.object as) (.object bs) = (as.size == bs.size && equalEntries as.toList bs) := rfl

/-- The left side of a comparison may be rearranged. -/
theorem equal_left (h : Rearranged a b) : equal a = equal b := by
  induction h with
  | refl v => rfl
  | array hl _ ih =>
      funext c
      cases c with
      | array cs => exact equalItems_left (forall₂_items hl ih) cs
      | _ => rfl
  | @object as bs hn hp _ ih =>
      funext c
      cases c with
      | object cs =>
          have hentries : equalEntries as.toList cs = equalEntries bs.toList cs := by
            rw [Bool.eq_iff_iff, equalEntries_iff hn, equalEntries_iff (hp.nodup_iff.mp hn)]
            constructor
            · intro hall k b hb
              obtain ⟨a, ha⟩ := exists_get? hp.symm hb
              rw [← ih k a b ha hb]
              exact hall k a ha
            · intro hall k a ha
              obtain ⟨b, hb⟩ := exists_get? hp ha
              rw [ih k a b ha hb]
              exact hall k b hb
          rw [equal_object, equal_object, size_eq hp, hentries]
      | _ => rfl

/-- The right side of a comparison may be rearranged. -/
theorem equal_right (h : Rearranged a b) : ∀ c, equal c a = equal c b := by
  induction h with
  | refl v => exact fun _ => rfl
  | array hl _ ih =>
      intro c
      cases c with
      | array cs => exact equalItems_right (forall₂_items hl ih) cs
      | _ => rfl
  | @object as bs hn hp _ ih =>
      intro c
      cases c with
      | object cs =>
          have hany : ∀ x k, (as.get? k).any (equal x) = (bs.get? k).any (equal x) := by
            intro x k
            cases ha : as.get? k with
            | none => rw [(get?_eq_none_iff hp k).mp ha]
            | some a =>
                obtain ⟨b, hb⟩ := exists_get? hp ha
                rw [hb]
                exact ih k a b ha hb x
          have hentries : ∀ l, equalEntries l as = equalEntries l bs := by
            intro l
            induction l with
            | nil => rfl
            | cons e l ihl => rw [equalEntries, equalEntries, hany, ihl]
          rw [equal_object, equal_object, size_eq hp, hentries]
      | _ => rfl

/-- Equality does not see how its sides are arranged. -/
theorem equal_congr {c d : Value} (h : Rearranged a b) (h' : Rearranged c d) :
    (a == c) = (b == d) := by
  show equal a c = equal b d
  rw [h.equal_left, h'.equal_right]

/-! ## Order -/

theorem orderItems_left {as bs : List Value} (h : List.Forall₂ (fun a b => order a = order b) as bs) :
    ∀ cs, orderItems as cs = orderItems bs cs := by
  induction h with
  | nil => exact fun _ => rfl
  | cons hab _ ih =>
      intro cs
      cases cs with
      | nil => rfl
      | cons c cs => rw [orderItems, orderItems, hab, ih]

theorem orderItems_right {as bs : List Value}
    (h : List.Forall₂ (fun a b => ∀ c, order c a = order c b) as bs) :
    ∀ cs, orderItems cs as = orderItems cs bs := by
  induction h with
  | nil => exact fun _ => rfl
  | cons hab _ ih =>
      intro cs
      cases cs with
      | nil => rfl
      | cons c cs => rw [orderItems, orderItems, hab, ih]

theorem order_left (h : Rearranged a b) : order a = order b := by
  induction h with
  | refl v => rfl
  | array hl _ ih =>
      funext c
      cases c with
      | array cs => exact orderItems_left (forall₂_items hl ih) cs
      | _ => rfl
  | object _ hp _ _ =>
      funext c
      cases c with
      | object cs => exact congrArg (compare · cs.size) (size_eq hp)
      | _ => rfl

theorem order_right (h : Rearranged a b) : ∀ c, order c a = order c b := by
  induction h with
  | refl v => exact fun _ => rfl
  | array hl _ ih =>
      intro c
      cases c with
      | array cs => exact orderItems_right (forall₂_items hl ih) cs
      | _ => rfl
  | object _ hp _ _ =>
      intro c
      cases c with
      | object cs => exact congrArg (compare cs.size) (size_eq hp)
      | _ => rfl

/-- The order does not see how values are arranged. -/
theorem order_congr {c d : Value} (h : Rearranged a b) (h' : Rearranged c d) :
    order a c = order b d := by
  rw [h.order_left, h'.order_right]

end Rearranged

end Value

/-! ## Checks -/

namespace Check

open Value (Rearranged)

/-- Checks that neither rewrite a value nor ask a function of the user's. -/
def IsPlain : Check → Prop
  | .unique same converts => same = none ∧ converts = false
  | .sorted order converts => order = none ∧ converts = false
  | .compact => False
  | .custom .. => False
  | _ => True

section Items

variable {R : Value → Value → Prop} {as bs : List Value}

theorem any_same_congr {same : Value → Value → Bool}
    (hsame : ∀ a b c d, R a b → R c d → same a c = same b d) (h : List.Forall₂ R as bs)
    {c d : Value} (hcd : R c d) : as.any (same · c) = bs.any (same · d) := by
  induction h with
  | nil => rfl
  | cons hab _ ih => rw [List.any_cons, List.any_cons, hsame _ _ _ _ hab hcd, ih]

theorem firstRepeat?_isNone_congr {same : Value → Value → Bool}
    (hsame : ∀ a b c d, R a b → R c d → same a c = same b d) (h : List.Forall₂ R as bs) :
    ∀ {cs ds : List Value}, List.Forall₂ R cs ds →
      (firstRepeat? same cs as).isNone = (firstRepeat? same ds bs).isNone := by
  induction h with
  | nil => exact fun _ => rfl
  | @cons a b as bs hab _ ih =>
      intro cs ds hcd
      rw [firstRepeat?, firstRepeat?, any_same_congr hsame hcd hab]
      split
      · rfl
      · exact ih (List.rel_append hcd (.cons hab .nil))

theorem firstDescent?_isNone_congr {order : Value → Value → Ordering}
    (horder : ∀ a b c d, R a b → R c d → order a c = order b d) (h : List.Forall₂ R as bs) :
    (firstDescent? order as).isNone = (firstDescent? order bs).isNone := by
  induction h with
  | nil => rfl
  | cons hab ht ih =>
      cases ht with
      | nil => rfl
      | cons hcd ht =>
          rw [firstDescent?, firstDescent?, horder _ _ _ _ hab hcd]
          split
          · rfl
          · exact ih

end Items

theorem evaluateUnique_eq_pass_iff {v : Value} {items : List Value} (hv : v.asItems? = some items)
    (same : Value → Value → Bool) :
    evaluateUnique same false v = .pass ↔ (firstRepeat? same [] items).isNone = true := by
  rw [evaluateUnique, hv]
  cases h : firstRepeat? same [] items <;> simp [h]

theorem evaluateSorted_eq_pass_iff {v : Value} {items : List Value} (hv : v.asItems? = some items)
    (order : Value → Value → Ordering) :
    evaluateSorted order false v = .pass ↔ (firstDescent? order items).isNone = true := by
  rw [evaluateSorted, hv]
  cases h : firstDescent? order items <;> simp [h]

/-- A plain check passes a value however its keys are arranged. -/
theorem evaluate_eq_pass_iff {c : Check} (hc : c.IsPlain) {v w : Value} (h : v.Rearranged w) :
    c.evaluate v = .pass ↔ c.evaluate w = .pass := by
  cases h with
  | refl => exact Iff.rfl
  | @array as bs hl hall =>
      have hmeasure : measure (.array as) = measure (.array bs) := congrArg Value.ofNat hl
      have hitems := Value.Rearranged.forall₂_items hl hall
      cases c with
      | unique same converts =>
          obtain ⟨rfl, rfl⟩ := hc
          have hsame : ∀ a b c d, Rearranged a b → Rearranged c d → (a == c) = (b == d) :=
            fun _ _ _ _ => Rearranged.equal_congr
          rw [evaluate, evaluate, evaluateUnique_eq_pass_iff rfl, evaluateUnique_eq_pass_iff rfl]
          exact iff_of_eq (congrArg (· = true) (firstRepeat?_isNone_congr hsame hitems .nil))
      | sorted order converts =>
          obtain ⟨rfl, rfl⟩ := hc
          have horder : ∀ a b c d, Rearranged a b → Rearranged c d → a.order c = b.order d :=
            fun _ _ _ _ => Rearranged.order_congr
          rw [evaluate, evaluate, evaluateSorted_eq_pass_iff rfl, evaluateSorted_eq_pass_iff rfl]
          exact iff_of_eq (congrArg (· = true) (firstDescent?_isNone_congr horder hitems))
      | compact => exact hc.elim
      | custom name accepts => exact hc.elim
      | multiple step => simp [evaluate, isMultiple, Verdict.ofBool]
      | _ => simp [evaluate, hmeasure, onNumber, onString]
  | @object as bs hn hp hall =>
      have hmeasure : measure (.object as) = measure (.object bs) :=
        congrArg Value.ofNat (Rearranged.size_eq hp)
      cases c with
      | unique same converts => simp [evaluate, evaluateUnique, Value.asItems?]
      | sorted order converts => simp [evaluate, evaluateSorted, Value.asItems?]
      | compact => exact hc.elim
      | custom name accepts => exact hc.elim
      | multiple step => simp [evaluate, isMultiple, Verdict.ofBool]
      | _ => simp [evaluate, hmeasure, onNumber, onString]

theorem IsPlain.keeps {c : Check} (hc : c.IsPlain) (v w : Value) : c.evaluate v ≠ .rewrite w := by
  intro h
  have hkind := kind_of_rewrite h
  cases c with
  | unique same converts =>
      obtain ⟨rfl, rfl⟩ := hc
      have h : evaluateUnique (· == ·) false v = .rewrite w := h
      unfold evaluateUnique at h
      split at h
      next => cases h
      next => rw [if_neg (by simp)] at h; split at h <;> cases h
  | sorted order converts =>
      obtain ⟨rfl, rfl⟩ := hc
      have h : evaluateSorted Value.order false v = .rewrite w := h
      unfold evaluateSorted at h
      split at h
      next => cases h
      next => split at h <;> cases h
  | compact => exact hc
  | _ => simp [kind] at hkind

end Check

end ValueSchema

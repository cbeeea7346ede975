import Mathlib.Data.List.Perm.Subperm
import ValueSchema.Proofs.Rearranged
import ValueSchema.Proofs.Throughout

/-!
# Values that are alike

`Value.Alike` relates two values that are the same up to the order of keys and the sign of
zero, at any depth.  It is an equivalence.

Equality of values is this relation, except that what is not a number equals nothing: of values
without a repeated key, two are equal just when they are alike and every number in them is one
(`Value.equal_iff_alike`).  So equality is symmetric, but a value need not be equal to itself.
Equality is transitive whatever the keys are (`Value.equal_trans`).
-/

namespace ValueSchema

namespace Value

/-- The same value up to the order of the keys of objects and the sign of zero. -/
inductive Alike : Value → Value → Prop where
  | refl (v : Value) : Alike v v
  | zero {x y : Double} : x.isZero = true → y.isZero = true → Alike (.number x) (.number y)
  | array {as bs : List Value} :
      as.length = bs.length →
      (∀ (i : Nat) (a b : Value), as[i]? = some a → bs[i]? = some b → Alike a b) →
      Alike (.array as) (.array bs)
  | set {as bs : List Value} :
      as.length = bs.length →
      (∀ (i : Nat) (a b : Value), as[i]? = some a → bs[i]? = some b → Alike a b) →
      Alike (.set as) (.set bs)
  | object {as bs : Entries Value} :
      as.keys.Nodup → as.keys.Perm bs.keys →
      (∀ (k : String) (a b : Value), as.get? k = some a → bs.get? k = some b → Alike a b) →
      Alike (.object as) (.object bs)

namespace Alike

variable {a b c : Value}

theorem symm (h : Alike a b) : Alike b a := by
  induction h with
  | refl v => exact .refl v
  | zero hx hy => exact .zero hy hx
  | array hl _ ih => exact .array hl.symm fun i a b ha hb => ih i b a hb ha
  | set hl _ ih => exact .set hl.symm fun i a b ha hb => ih i b a hb ha
  | object hn hp _ ih =>
      exact .object (hp.nodup_iff.mp hn) hp.symm fun k a b ha hb => ih k b a hb ha

/-- An item has a counterpart in a list of the same length. -/
theorem exists_item {as bs : List Value} (hl : as.length = bs.length) {i : Nat} {a : Value}
    (ha : as[i]? = some a) : ∃ b, bs[i]? = some b := by
  obtain ⟨hi, -⟩ := List.getElem?_eq_some_iff.mp ha
  exact ⟨_, List.getElem?_eq_getElem (hl ▸ hi)⟩

theorem trans (h : Alike a b) : ∀ {c}, Alike b c → Alike a c := by
  induction h with
  | refl v => exact id
  | zero hx hy =>
      intro c h'
      cases h' with
      | refl => exact .zero hx hy
      | zero _ hz => exact .zero hx hz
  | @array as bs hl hab ih =>
      intro c h'
      cases h' with
      | refl => exact .array hl hab
      | @array _ cs hl' hbc =>
          refine .array (hl.trans hl') fun i a c ha hc => ?_
          obtain ⟨b, hb⟩ := exists_item hl ha
          exact ih i a b ha hb (hbc i b c hb hc)
  | @set as bs hl hab ih =>
      intro c h'
      cases h' with
      | refl => exact .set hl hab
      | @set _ cs hl' hbc =>
          refine .set (hl.trans hl') fun i a c ha hc => ?_
          obtain ⟨b, hb⟩ := exists_item hl ha
          exact ih i a b ha hb (hbc i b c hb hc)
  | @object as bs hn hp hab ih =>
      intro c h'
      cases h' with
      | refl => exact .object hn hp hab
      | @object _ cs hn' hp' hbc =>
          refine .object hn (hp.trans hp') fun k a c ha hc => ?_
          obtain ⟨b, hb⟩ := Rearranged.exists_get? hp ha
          exact ih k a b ha hb (hbc k b c hb hc)

theorem array_of_forall₂ {as bs : List Value} (h : List.Forall₂ Alike as bs) :
    Alike (.array as) (.array bs) := by
  refine .array h.length_eq fun i a b ha hb => ?_
  obtain ⟨hi, rfl⟩ := List.getElem?_eq_some_iff.mp ha
  obtain ⟨hj, rfl⟩ := List.getElem?_eq_some_iff.mp hb
  exact h.get hi hj

theorem set_of_forall₂ {as bs : List Value} (h : List.Forall₂ Alike as bs) :
    Alike (.set as) (.set bs) := by
  refine .set h.length_eq fun i a b ha hb => ?_
  obtain ⟨hi, rfl⟩ := List.getElem?_eq_some_iff.mp ha
  obtain ⟨hj, rfl⟩ := List.getElem?_eq_some_iff.mp hb
  exact h.get hi hj

/-- Objects are alike when they have alike values under the same keys. -/
theorem object_of_get? {as bs : Entries Value} (ha : as.keys.Nodup) (hb : bs.keys.Nodup)
    (h : ∀ k, Option.Rel Alike (as.get? k) (bs.get? k)) : Alike (.object as) (.object bs) := by
  have hkeys : ∀ k, k ∈ as.keys ↔ k ∈ bs.keys := by
    intro k
    have hk := h k
    rw [← Entries.hasKey_iff, ← Entries.hasKey_iff, Entries.hasKey, Entries.hasKey]
    generalize as.get? k = x at hk ⊢
    generalize bs.get? k = y at hk ⊢
    cases hk <;> simp
  refine .object ha ((List.perm_ext_iff_of_nodup ha hb).mpr hkeys) fun k a b hka hkb => ?_
  have hk := h k
  rw [hka, hkb] at hk
  cases hk with
  | some hab => exact hab

/-- Zeros are numbers. -/
theorem isNaN_of_isZero {x : Double} (h : x.isZero = true) : x.isNaN = false := by
  simp only [Double.isZero, decide_eq_true_eq] at h
  simp [Double.isNaN, h]

theorem isNumeric (h : Alike a b) : a.IsNumeric → b.IsNumeric := by
  induction h with
  | refl v => exact id
  | zero _ hy => exact fun _ => .number (isNaN_of_isZero hy)
  | @array as bs hl _ ih =>
      intro ha
      refine Throughout.array nofun fun b hb => ?_
      obtain ⟨i, hi⟩ := List.mem_iff_getElem?.mp hb
      obtain ⟨a, hai⟩ := exists_item hl.symm hi
      exact ih i a b hai hi (ha.of_mem_array (List.mem_of_getElem? hai))
  | @set as bs hl _ ih =>
      intro ha
      refine Throughout.set nofun fun b hb => ?_
      obtain ⟨i, hi⟩ := List.mem_iff_getElem?.mp hb
      obtain ⟨a, hai⟩ := exists_item hl.symm hi
      exact ih i a b hai hi (ha.of_mem_set (List.mem_of_getElem? hai))
  | @object as bs _ hp _ ih =>
      intro ha
      refine Throughout.object nofun fun k b hb => ?_
      obtain ⟨a, hka⟩ := Rearranged.exists_get? hp.symm hb
      exact ih k a b hka hb (ha.of_get? hka)

end Alike

/-! ## Equality -/

theorem equalItems_iff :
    ∀ {as bs : List Value}, equalItems as bs = true ↔ List.Forall₂ (fun a b => equal a b = true) as bs
  | [], [] => by simp [equalItems]
  | [], b :: bs => by simp [equalItems]
  | a :: as, [] => by simp [equalItems]
  | a :: as, b :: bs => by simp [equalItems, equalItems_iff]

/-- Objects are equal when they have the same keys with equal values. -/
theorem equal_object_iff {as bs : Entries Value} (ha : as.keys.Nodup) :
    equal (.object as) (.object bs) = true ↔
      as.keys.Perm bs.keys ∧
        ∀ k a, as.get? k = some a → ∃ b, bs.get? k = some b ∧ equal a b = true := by
  rw [Rearranged.equal_object, Bool.and_eq_true, beq_iff_eq, Rearranged.equalEntries_iff ha]
  simp only [Option.any_eq_true]
  constructor
  · rintro ⟨hsize, hall⟩
    have hsub : as.keys ⊆ bs.keys := by
      intro k hk
      rw [← Entries.hasKey_iff, Entries.hasKey, Option.isSome_iff_exists] at hk
      obtain ⟨a, hka⟩ := hk
      obtain ⟨b, hkb, -⟩ := hall k a hka
      simp [← Entries.hasKey_iff, Entries.hasKey, hkb]
    have hlen : bs.keys.length ≤ as.keys.length := by
      simpa [Entries.keys, Entries.size] using Nat.le_of_eq hsize.symm
    exact ⟨(List.subperm_of_subset ha hsub).perm_of_length_le hlen, hall⟩
  · rintro ⟨hp, hall⟩
    exact ⟨Rearranged.size_eq hp, hall⟩

theorem equal_number_iff {x y : Double} :
    x.equal y = true ↔ x.isNaN = false ∧ (x = y ∨ x.isZero = true ∧ y.isZero = true) := by
  simp only [Double.equal, Bool.and_eq_true, Bool.not_eq_true', Bool.or_eq_true, beq_iff_eq]
  constructor
  · rintro ⟨⟨hx, -⟩, h⟩
    exact ⟨hx, h⟩
  · rintro ⟨hx, rfl | ⟨hzero, hzero'⟩⟩
    · exact ⟨⟨hx, hx⟩, .inl rfl⟩
    · exact ⟨⟨hx, Alike.isNaN_of_isZero hzero'⟩, .inr ⟨hzero, hzero'⟩⟩

/-- A value that is no number and holds nothing is equal to itself only. -/
theorem equal_flat_iff {a b : Value} (hi : a.asItems? = none) (he : a.asEntries? = none)
    (hx : a.asNumber? = none) : equal a b = true ↔ a = b := by
  cases a <;> cases b <;> simp_all [equal, asItems?, asEntries?, asNumber?]

/-! ## Transitivity -/

theorem equalEntries_iff_forall {as : List (String × Value)} {bs : Entries Value} :
    equalEntries as bs = true ↔ ∀ e ∈ as, ∃ b, bs.get? e.1 = some b ∧ equal e.2 b = true := by
  induction as with
  | nil => simp [equalEntries]
  | cons e as ih => simp [equalEntries, ih, Option.any_eq_true]

mutual

/-- Equality is transitive, also when keys are repeated. -/
theorem equal_trans {a b c : Value} (h : equal a b = true) (h' : equal b c = true) :
    equal a c = true := by
  cases a with
  | number x =>
      cases b with
      | number y =>
          cases c with
          | number z =>
              obtain ⟨hx, hxy⟩ := equal_number_iff.mp h
              obtain ⟨-, hyz⟩ := equal_number_iff.mp h'
              refine equal_number_iff.mpr ⟨hx, ?_⟩
              rcases hxy with rfl | ⟨hzero, hzero'⟩
              · exact hyz
              · exact .inr ⟨hzero, hyz.elim (fun h => h ▸ hzero') And.right⟩
          | _ => cases h'
      | _ => cases h
  | array as =>
      cases b with
      | array bs =>
          cases c with
          | array cs => exact equalItems_trans h h'
          | _ => cases h'
      | _ => cases h
  | set as =>
      cases b with
      | set bs =>
          cases c with
          | set cs => exact equalItems_trans h h'
          | _ => cases h'
      | _ => cases h
  | object as =>
      cases b with
      | object bs =>
          cases c with
          | object cs =>
              rcases as with ⟨as⟩
              rcases bs with ⟨bs⟩
              obtain ⟨hsize, hentries⟩ := Bool.and_eq_true_iff.mp h
              obtain ⟨hsize', hentries'⟩ := Bool.and_eq_true_iff.mp h'
              refine Bool.and_eq_true_iff.mpr ⟨?_, equalEntries_trans hentries hentries'⟩
              exact beq_iff_eq.mpr ((beq_iff_eq.mp hsize).trans (beq_iff_eq.mp hsize'))
          | _ => cases h'
      | _ => cases h
  | _ =>
      obtain rfl := (equal_flat_iff rfl rfl rfl).mp h
      exact h'
termination_by structural a

theorem equalItems_trans {as bs cs : List Value} (h : equalItems as bs = true)
    (h' : equalItems bs cs = true) : equalItems as cs = true := by
  cases as with
  | nil =>
      cases bs with
      | nil => exact h'
      | cons b bs => cases h
  | cons a as =>
      cases bs with
      | nil => cases h
      | cons b bs =>
          cases cs with
          | nil => cases h'
          | cons c cs =>
              rw [equalItems, Bool.and_eq_true] at h h' ⊢
              exact ⟨equal_trans h.1 h'.1, equalItems_trans h.2 h'.2⟩
termination_by structural as

theorem equalEntries_trans {as bs : List (String × Value)} {cs : Entries Value}
    (h : equalEntries as ⟨bs⟩ = true) (h' : equalEntries bs cs = true) :
    equalEntries as cs = true := by
  cases as with
  | nil => rfl
  | cons e as =>
      rcases e with ⟨k, a⟩
      rw [equalEntries, Bool.and_eq_true, Option.any_eq_true] at h ⊢
      obtain ⟨⟨b, hb, hab⟩, htail⟩ := h
      -- What is found under the key in the middle is found again on the right.
      obtain ⟨c, hc, hbc⟩ := equalEntries_iff_forall.mp h' (k, b) (Entries.mem_of_get? hb)
      exact ⟨⟨c, hc, equal_trans hab hbc⟩, equalEntries_trans htail h'⟩
termination_by structural as

end

/-! ## Equal and alike -/

/-- Items that are equal in pairs are alike in pairs when this is known of each item. -/
theorem alike_items {as bs : List Value}
    (ih : ∀ a ∈ as, ∀ {b}, equal a b = true → Alike a b ∧ a.IsNumeric)
    (h : List.Forall₂ (fun a b => equal a b = true) as bs) :
    List.Forall₂ Alike as bs ∧ ∀ a ∈ as, a.IsNumeric := by
  induction h with
  | nil => exact ⟨.nil, nofun⟩
  | cons hab _ ihl =>
      obtain ⟨hhead, htail⟩ := List.forall_mem_cons.mp ih
      obtain ⟨halike, hnumeric⟩ := ihl htail
      exact ⟨.cons (hhead hab).1 halike, List.forall_mem_cons.mpr ⟨(hhead hab).2, hnumeric⟩⟩

/-- Equal values are alike, and every number in them is one. -/
theorem alike_of_equal {a : Value} (ha : a.DistinctKeys) :
    ∀ {b}, equal a b = true → Alike a b ∧ a.IsNumeric := by
  induction ha with
  | @intro a hown _ ih =>
      intro b h
      cases a with
      | number x =>
          cases b with
          | number y =>
              obtain ⟨hx, rfl | ⟨hzero, hzero'⟩⟩ := equal_number_iff.mp h
              · exact ⟨.refl _, .number hx⟩
              · exact ⟨.zero hzero hzero', .number hx⟩
          | _ => cases h
      | array as =>
          cases b with
          | array bs =>
              obtain ⟨halike, hnumeric⟩ :=
                alike_items (fun a ha => ih a (.inl ha)) (equalItems_iff.mp h)
              exact ⟨.array_of_forall₂ halike, Throughout.array nofun hnumeric⟩
          | _ => cases h
      | set as =>
          cases b with
          | set bs =>
              obtain ⟨halike, hnumeric⟩ :=
                alike_items (fun a ha => ih a (.inl ha)) (equalItems_iff.mp h)
              exact ⟨.set_of_forall₂ halike, Throughout.set nofun hnumeric⟩
          | _ => cases h
      | object as =>
          cases b with
          | object bs =>
              obtain ⟨hkeys, hall⟩ := (equal_object_iff hown).mp h
              refine ⟨.object hown hkeys fun k a b ha hb => ?_, Throughout.object nofun fun k a ha => ?_⟩
              · obtain ⟨b', hb', hab⟩ := hall k a ha
                obtain rfl := Option.some.inj (hb.symm.trans hb')
                exact (ih a (.inr ⟨k, ha⟩) hab).1
              · obtain ⟨b, -, hab⟩ := hall k a ha
                exact (ih a (.inr ⟨k, ha⟩) hab).2
          | _ => cases h
      | _ =>
          obtain rfl := (equal_flat_iff rfl rfl rfl).mp h
          exact ⟨.refl _, Throughout.flat nofun rfl rfl⟩

/-- A value without a repeated key, in which every number is one, is equal to itself. -/
theorem equal_self {a : Value} (ha : a.DistinctKeys) : a.IsNumeric → equal a a = true := by
  induction ha with
  | @intro a hown _ ih =>
      intro h
      cases a with
      | number x => exact equal_number_iff.mpr ⟨h.isNaN_eq_false, .inl rfl⟩
      | array as =>
          exact equalItems_iff.mpr (List.forall₂_same.mpr fun a ha => ih a (.inl ha) (h.of_mem_array ha))
      | set as =>
          exact equalItems_iff.mpr (List.forall₂_same.mpr fun a ha => ih a (.inl ha) (h.of_mem_set ha))
      | object as =>
          refine (equal_object_iff hown).mpr ⟨.refl _, fun k a ha => ⟨a, ha, ?_⟩⟩
          exact ih a (.inr ⟨k, ha⟩) (h.of_get? ha)
      | _ => exact (equal_flat_iff rfl rfl rfl).mpr rfl

/-- Alike values are equal when every number in them is one. -/
theorem Alike.equal {a b : Value} (h : Alike a b) :
    a.DistinctKeys → a.IsNumeric → Value.equal a b = true := by
  induction h with
  | refl v => exact equal_self
  | zero hx hy => exact fun _ hn => equal_number_iff.mpr ⟨hn.isNaN_eq_false, .inr ⟨hx, hy⟩⟩
  | array hl _ ih =>
      intro hd hn
      refine equalItems_iff.mpr (Rearranged.forall₂_items hl fun i a b ha hb => ?_)
      have hmem := List.mem_of_getElem? ha
      exact ih i a b ha hb (hd.of_mem_array hmem) (hn.of_mem_array hmem)
  | set hl _ ih =>
      intro hd hn
      refine equalItems_iff.mpr (Rearranged.forall₂_items hl fun i a b ha hb => ?_)
      have hmem := List.mem_of_getElem? ha
      exact ih i a b ha hb (hd.of_mem_set hmem) (hn.of_mem_set hmem)
  | object _ hp _ ih =>
      intro hd hn
      refine (equal_object_iff hd.nodup).mpr ⟨hp, fun k a ha => ?_⟩
      obtain ⟨b, hb⟩ := Rearranged.exists_get? hp ha
      exact ⟨b, hb, ih k a b ha hb (hd.of_get? ha) (hn.of_get? ha)⟩

/-- Equality is the relation of being alike, among values in which every number is one. -/
theorem equal_iff_alike {a b : Value} (ha : a.DistinctKeys) :
    equal a b = true ↔ Alike a b ∧ a.IsNumeric :=
  ⟨alike_of_equal ha, fun ⟨h, hn⟩ => h.equal ha hn⟩

theorem equal_comm {a b : Value} (ha : a.DistinctKeys) (hb : b.DistinctKeys) :
    equal a b = equal b a := by
  rw [Bool.eq_iff_iff, equal_iff_alike ha, equal_iff_alike hb]
  exact ⟨fun ⟨h, hn⟩ => ⟨h.symm, h.isNumeric hn⟩, fun ⟨h, hn⟩ => ⟨h.symm, h.isNumeric hn⟩⟩

/-- Equality does not see which of two alike values stands on its left side. -/
theorem Alike.equal_congr {a a' b : Value} (h : Alike a a') (ha : a.DistinctKeys)
    (ha' : a'.DistinctKeys) : Value.equal a b = Value.equal a' b := by
  rw [Bool.eq_iff_iff, equal_iff_alike ha, equal_iff_alike ha']
  constructor
  · rintro ⟨hb, hn⟩
    exact ⟨h.symm.trans hb, h.isNumeric hn⟩
  · rintro ⟨hb, hn⟩
    exact ⟨h.trans hb, h.symm.isNumeric hn⟩

end Value

end ValueSchema

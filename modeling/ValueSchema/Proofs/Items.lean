import Mathlib.Data.List.Basic
import ValueSchema.Check.Evaluate
import ValueSchema.Schema.Basic

/-!
# Items that checks leave

Some checks rewrite an array: they drop items or put them in another order, and never make
new ones (`Check.items_of_rewrite`).  `Value.keepFirst_pairwise` says that no two of the kept
items are alike, and `Check.sortItems_perm` that sorting keeps all of them, whatever the
order is.  No other kind of node has such checks (`Kind.array_of_supports`).
-/

namespace ValueSchema

namespace Value

/-! ## Kept items -/

/-- The invariant of keeping items: no kept item is identified with a later one, and each was
kept before or is one of the items. -/
theorem keepFirst_step (same : Value → Value → Bool) (items : List Value) :
    ∀ kept : List Value, (kept.Pairwise fun a b => same a b = false) →
      let out := items.foldl
        (fun kept item => if kept.any (same · item) then kept else kept ++ [item]) kept
      (out.Pairwise fun a b => same a b = false) ∧ ∀ v ∈ out, v ∈ kept ∨ v ∈ items := by
  induction items with
  | nil => exact fun kept hk => ⟨hk, fun v hv => .inl hv⟩
  | cons item items ih =>
      intro kept hk
      rw [List.foldl_cons]
      by_cases hany : kept.any (same · item) = true
      · rw [if_pos hany]
        obtain ⟨hp, hm⟩ := ih kept hk
        exact ⟨hp, fun v hv => (hm v hv).imp_right (List.mem_cons_of_mem _)⟩
      · rw [if_neg hany]
        have hnew : ∀ a ∈ kept, same a item = false := by
          intro a ha
          cases hs : same a item with
          | false => rfl
          | true => exact absurd (List.any_eq_true.mpr ⟨a, ha, hs⟩) hany
        have hk' : (kept ++ [item]).Pairwise fun a b => same a b = false := by
          refine List.pairwise_append.mpr ⟨hk, List.pairwise_singleton _ _, ?_⟩
          intro a ha b hb
          rw [List.mem_singleton.mp hb]
          exact hnew a ha
        obtain ⟨hp, hm⟩ := ih _ hk'
        refine ⟨hp, fun v hv => ?_⟩
        rcases hm v hv with hkept | hitem
        · rcases List.mem_append.mp hkept with h | h
          · exact .inl h
          · exact .inr (List.mem_singleton.mp h ▸ List.mem_cons_self ..)
        · exact .inr (List.mem_cons_of_mem _ hitem)

theorem keepFirst_pairwise (same : Value → Value → Bool) (items : List Value) :
    (keepFirst same items).Pairwise fun a b => same a b = false :=
  (keepFirst_step same items [] .nil).1

theorem mem_of_mem_keepFirst {same : Value → Value → Bool} {items : List Value} {v : Value}
    (h : v ∈ keepFirst same items) : v ∈ items :=
  ((keepFirst_step same items [] .nil).2 v h).resolve_left List.not_mem_nil

end Value

namespace Check

/-! ## Sorted items -/

theorem insertLast_perm (order : Value → Value → Ordering) (v : Value) (before : List Value) :
    (insertLast order v before).Perm (v :: before) := by
  unfold insertLast
  dsimp only
  refine List.perm_middle.trans (.cons v ?_)
  rw [List.takeWhile_append_dropWhile]

theorem foldl_insertLast_perm (order : Value → Value → Ordering) (items : List Value) :
    ∀ sorted, (items.foldl (fun sorted v => insertLast order v sorted) sorted).Perm
      (items ++ sorted) := by
  induction items with
  | nil => exact fun sorted => .refl _
  | cons v items ih =>
      intro sorted
      rw [List.foldl_cons]
      have hinsert := (insertLast_perm order v sorted).append_left items
      exact (ih _).trans (hinsert.trans List.perm_middle)

theorem sortItems_perm (order : Value → Value → Ordering) (items : List Value) :
    (sortItems order items).Perm items := by
  unfold sortItems
  split
  · have hall := foldl_insertLast_perm order items []
    rw [List.append_nil] at hall
    exact (List.reverse_perm _).trans hall
  · exact List.mergeSort_perm items _

/-! ## Rewriting checks -/

theorem asItems?_withItems {v : Value} {items : List Value} (hv : v.asItems? = some items)
    (left : List Value) :
    (withItems v left).asItems? = some left := by
  cases v with
  | array => rfl
  | set => rfl
  | _ => cases hv

theorem withItems_self {v : Value} {items : List Value} (hv : v.asItems? = some items) :
    withItems v items = v := by
  cases v with
  | array => exact congrArg Value.array (Option.some.inj hv).symm
  | set => exact congrArg Value.set (Option.some.inj hv).symm
  | _ => cases hv

theorem ofBool_ne_rewrite (ok : Bool) (received w : Value) :
    Verdict.ofBool ok received ≠ .rewrite w := by
  cases ok <;> exact nofun

/-- The checks of these kinds may rewrite a value, and no others. -/
theorem kind_of_rewrite {c : Check} {v w : Value} (h : c.evaluate v = .rewrite w) :
    c.kind ∈ [.unique, .sorted, .compact] := by
  have hn : ∀ test, onNumber v test ≠ .rewrite w := by
    intro test
    unfold onNumber
    split
    · exact ofBool_ne_rewrite _ _ _
    · exact nofun
  have hs : ∀ test, onString v test ≠ .rewrite w := by
    intro test
    unfold onString
    split
    · exact ofBool_ne_rewrite _ _ _
    · exact nofun
  cases c with
  | unique => exact List.mem_cons_self ..
  | sorted => exact List.mem_cons_of_mem _ (List.mem_cons_self ..)
  | compact => exact List.mem_cons_of_mem _ (List.mem_cons_of_mem _ (List.mem_cons_self ..))
  | integer => exact absurd h (hn _)
  | precision => exact absurd h (hn _)
  | finite => exact absurd h (hn _)
  | safe => exact absurd h (hn _)
  | pattern => exact absurd h (hs _)
  | startsWith => exact absurd h (hs _)
  | endsWith => exact absurd h (hs _)
  | includes => exact absurd h (hs _)
  | email => exact absurd h (hs _)
  | url => exact absurd h (hs _)
  | uuid => exact absurd h (hs _)
  | _ => exact absurd h (ofBool_ne_rewrite _ _ _)

/-- A check that rewrites a value leaves some of its items, in a sequence of the same type. -/
theorem items_of_rewrite {c : Check} {v w : Value} (h : c.evaluate v = .rewrite w) :
    ∃ left, w = withItems v left ∧ ∀ u ∈ left, u ∈ v.items := by
  have hkind := kind_of_rewrite h
  cases c with
  | unique same converts =>
      have h : evaluateUnique (same.getD (· == ·)) converts v = .rewrite w := h
      unfold evaluateUnique at h
      split at h
      next => cases h
      next items hitems =>
          have hv : v.items = items := by simp [Value.items, hitems]
          split at h
          next =>
              dsimp only at h
              split at h
              next => cases h
              next =>
                  obtain rfl := Verdict.rewrite.inj h
                  exact ⟨_, rfl, fun u hu => hv ▸ Value.mem_of_mem_keepFirst hu⟩
          next => split at h <;> cases h
  | sorted order converts =>
      have h : evaluateSorted (order.getD Value.order) converts v = .rewrite w := h
      unfold evaluateSorted at h
      split at h
      next => cases h
      next items hitems =>
          have hv : v.items = items := by simp [Value.items, hitems]
          split at h
          next => cases h
          next =>
              split at h
              next =>
                  obtain rfl := Verdict.rewrite.inj h
                  exact ⟨_, rfl, fun u hu => hv ▸ (sortItems_perm _ items).mem_iff.mp hu⟩
              next => cases h
  | compact =>
      cases v with
      | array items =>
          obtain rfl := Verdict.rewrite.inj h
          exact ⟨_, rfl, fun u hu => (List.mem_filter.mp hu).1⟩
      | _ => cases h
  | _ => simp [kind] at hkind

end Check

/-- Only arrays have checks that rewrite. -/
theorem Kind.array_of_supports {α : Type} {k : Kind α} {c : CheckKind} (h : k.supports c = true)
    (hc : c ∈ [.unique, .sorted, .compact]) : ∃ e, k = .array e := by
  simp only [List.mem_cons, List.not_mem_nil, or_false] at hc
  cases k with
  | array e => exact ⟨e, rfl⟩
  | leaf l => cases l <;> rcases hc with rfl | rfl | rfl <;> cases h
  | _ => rcases hc with rfl | rfl | rfl <;> cases h

end ValueSchema

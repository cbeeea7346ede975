import Mathlib.Data.List.TakeWhile
import ValueSchema.Proofs.Items
import ValueSchema.Proofs.OrderLaws
import ValueSchema.Proofs.Success

/-!
# Sorting items

A list is sorted by an order that is a total preorder among its items (`Check.Ranks`).  A lawful
comparison of all values is one (`Check.ranks_of_transCmp`), and the order of values is as long as no
integer is rounded (`Check.ranks_of_isExact`).

`Check.IsStableSort` says what the result of sorting is: the items in ascending order, those that
compare as equal in their old order.  There is one such list (`Check.IsStableSort.unique`), and
`Check.sortItems` finds it by either of its methods.  For a short list an item is inserted into a
stable sort of those before it (`Check.IsStableSort.insertLast`).  For a long one an ascending
sublist of the items stays one when halves are merged.

The check itself looks at neighbours only.  As the order is transitive, this decides about all pairs
(`Check.firstDescent?_eq_none_iff`).
-/

namespace ValueSchema

namespace Check

/-- An order that is a total preorder among items. -/
structure Ranks (order : Value → Value → Ordering) (items : List Value) : Prop where
  swap : ∀ a ∈ items, ∀ b ∈ items, order b a = (order a b).swap
  trans : ∀ a ∈ items, ∀ b ∈ items, ∀ c ∈ items,
    order a b ≠ .gt → order b c ≠ .gt → order a c ≠ .gt

/-- No item comes after a later one. -/
def Ascending (order : Value → Value → Ordering) (items : List Value) : Prop :=
  items.Pairwise fun a b => order a b ≠ .gt

/-- Those items that an order does not tell from a value, in their order. -/
def tied (order : Value → Value → Ordering) (a : Value) (items : List Value) : List Value :=
  items.filter fun b => order a b = .eq

/-- The items in ascending order, equal ones in their old order. -/
structure IsStableSort (order : Value → Value → Ordering) (items ranked : List Value) : Prop where
  perm : ranked.Perm items
  ascending : Ascending order ranked
  stable : ∀ a ∈ items, tied order a ranked = tied order a items

/-- The first two neighbours in descending order, and where they are. -/
structure DescendsFirst (order : Value → Value → Ordering) (items : List Value) (i : Nat)
    (a b : Value) : Prop where
  left : items[i]? = some a
  right : items[i + 1]? = some b
  descends : order a b = .gt
  first : ∀ j c d, j < i → items[j]? = some c → items[j + 1]? = some d → order c d ≠ .gt

section Sorting

variable {order : Value → Value → Ordering} {items items' done before xs ys : List Value}
  {a b c v : Value}

/-! ## Orders that rank items -/

theorem ranks_of_transCmp (order : Value → Value → Ordering) [Std.TransCmp order]
    (items : List Value) : Ranks order items where
  swap _ _ _ _ := Std.OrientedCmp.eq_swap
  trans _ _ _ _ _ _ hab hbc :=
    Ordering.isLE_iff_ne_gt.mp (Std.TransCmp.isLE_trans (Ordering.ne_gt_iff_isLE.mp hab)
      (Ordering.ne_gt_iff_isLE.mp hbc))

/-- The order of values ranks items in which no big integer may have to be rounded. -/
theorem ranks_of_isExact (h : ∀ a ∈ items, a.IsExact) : Ranks Value.order items where
  swap a _ b _ := Value.order_swap a b
  trans _ ha _ hb _ hc := Value.order_trans_of_isExact (h _ ha) (h _ hb) (h _ hc)

namespace Ranks

theorem mono (h : Ranks order items) (hsub : ∀ a ∈ items', a ∈ items) : Ranks order items' where
  swap a ha b hb := h.swap a (hsub a ha) b (hsub b hb)
  trans a ha b hb c hc := h.trans a (hsub a ha) b (hsub b hb) c (hsub c hc)

theorem refl (h : Ranks order items) (ha : a ∈ items) : order a a = .eq := by
  have hswap := h.swap a ha a ha
  cases haa : order a a <;> simp [haa] at hswap ⊢

theorem symm (h : Ranks order items) (ha : a ∈ items) (hb : b ∈ items) (hab : order a b = .eq) :
    order b a = .eq := by
  rw [h.swap a ha b hb, hab]
  rfl

theorem antisymm (h : Ranks order items) (ha : a ∈ items) (hb : b ∈ items)
    (hab : order a b ≠ .gt) (hba : order b a ≠ .gt) : order a b = .eq := by
  rw [h.swap a ha b hb] at hba
  cases hcase : order a b <;> simp [hcase] at hab hba ⊢

theorem total (h : Ranks order items) (ha : a ∈ items) (hb : b ∈ items) (hab : order a b ≠ .lt) :
    order b a ≠ .gt := by
  rw [h.swap a ha b hb]
  cases hcase : order a b <;> simp [hcase] at hab ⊢

theorem eq_trans (h : Ranks order items) (ha : a ∈ items) (hb : b ∈ items) (hc : c ∈ items)
    (hab : order a b = .eq) (hbc : order b c = .eq) : order a c = .eq := by
  have hba := h.symm ha hb hab
  have hcb := h.symm hb hc hbc
  exact h.antisymm ha hc (h.trans a ha b hb c hc (by simp [hab]) (by simp [hbc]))
    (h.trans c hc b hb a ha (by simp [hcb]) (by simp [hba]))

end Ranks

/-! ## One stable sort -/

theorem mem_tied : b ∈ tied order a items ↔ b ∈ items ∧ order a b = .eq := by
  simp [tied]

theorem tied_eq_nil_iff : tied order a items = [] ↔ ∀ b ∈ items, order a b ≠ .eq := by
  simp [tied]


theorem tied_append (order : Value → Value → Ordering) (a : Value) (xs ys : List Value) :
    tied order a (xs ++ ys) = tied order a xs ++ tied order a ys :=
  List.filter_append ..

theorem tied_cons_of_eq (h : order a v = .eq) : tied order a (v :: xs) = v :: tied order a xs :=
  List.filter_cons_of_pos (by simpa using h)

theorem tied_cons_of_ne (h : order a v ≠ .eq) : tied order a (v :: xs) = tied order a xs :=
  List.filter_cons_of_neg (by simpa using h)

/-- Ascending lists of the same items are the same when no order among equal items differs. -/
theorem Ascending.eq_of_perm (h : Ranks order xs) (hperm : ys.Perm xs) (hx : Ascending order xs)
    (hy : Ascending order ys) (htied : ∀ a ∈ xs, tied order a ys = tied order a xs) : ys = xs := by
  induction xs generalizing ys with
  | nil => exact hperm.eq_nil
  | cons x xs ih =>
      cases ys with
      | nil => exact absurd hperm.length_eq (by simp)
      | cons y ys =>
          have hxmem : x ∈ x :: xs := List.mem_cons_self ..
          have hymem : y ∈ x :: xs := hperm.mem_iff.mp (List.mem_cons_self ..)
          obtain ⟨hxleast, hxs⟩ := List.pairwise_cons.mp hx
          obtain ⟨hyleast, hys⟩ := List.pairwise_cons.mp hy
          have hself := h.refl hxmem
          -- Each of the two first items is least, so they are equal, and the first of their kind.
          have hxy : order x y = .eq := by
            refine h.antisymm hxmem hymem ?_ ?_
            · rcases List.mem_cons.mp hymem with rfl | hmem
              · simp [hself]
              · exact hxleast y hmem
            · rcases List.mem_cons.mp (hperm.mem_iff.mpr hxmem) with rfl | hmem
              · simp [hself]
              · exact hyleast x hmem
          have hfirst := htied x hxmem
          rw [tied_cons_of_eq hxy, tied_cons_of_eq hself] at hfirst
          obtain rfl : y = x := (List.cons.inj hfirst).1
          have hranks : Ranks order xs := h.mono fun a => List.mem_cons_of_mem y
          refine congrArg (y :: ·) (ih hranks hperm.cons_inv hxs hys fun a ha => ?_)
          have hrest := htied a (List.mem_cons_of_mem y ha)
          by_cases hay : order a y = .eq
          · rw [tied_cons_of_eq hay, tied_cons_of_eq hay] at hrest
            exact (List.cons.inj hrest).2
          · rwa [tied_cons_of_ne hay, tied_cons_of_ne hay] at hrest

theorem IsStableSort.unique (h : Ranks order items) (hx : IsStableSort order items xs)
    (hy : IsStableSort order items ys) : ys = xs := by
  have hmem : ∀ a ∈ xs, a ∈ items := fun a => hx.perm.mem_iff.mp
  have hperm := hy.perm.trans hx.perm.symm
  refine Ascending.eq_of_perm (h.mono hmem) hperm hx.ascending hy.ascending fun a ha => ?_
  rw [hy.stable a (hmem a ha), hx.stable a (hmem a ha)]

/-- Items in ascending order are sorted already. -/
theorem Ascending.isStableSort (h : Ascending order items) : IsStableSort order items items :=
  ⟨.refl _, h, fun _ _ => rfl⟩

/-- Equal values are not told from the same items. -/
theorem Ranks.tied_congr (h : Ranks order items') (ha : a ∈ items') (hb : b ∈ items')
    (hab : order a b = .eq) (hsub : ∀ c ∈ items, c ∈ items') :
    tied order a items = tied order b items := by
  refine List.filter_congr fun c hc => decide_eq_decide.mpr ⟨fun hac => ?_, fun hbc => ?_⟩
  · exact h.eq_trans hb ha (hsub c hc) (h.symm ha hb hab) hac
  · exact h.eq_trans ha hb (hsub c hc) hab hbc

/-- The items equal to a value keep their order, also when the value is none of them. -/
theorem IsStableSort.tied_eq (h : Ranks order items') (hsub : ∀ c ∈ items, c ∈ items')
    (hs : IsStableSort order items xs) (ha : a ∈ items') :
    tied order a xs = tied order a items := by
  by_cases hnone : tied order a items = []
  · rw [hnone, tied_eq_nil_iff]
    exact fun b hb => tied_eq_nil_iff.mp hnone b (hs.perm.mem_iff.mp hb)
  · obtain ⟨b, hb⟩ := List.exists_mem_of_ne_nil _ hnone
    obtain ⟨hmem, hab⟩ := mem_tied.mp hb
    have hsame {zs : List Value} (hzs : ∀ c ∈ zs, c ∈ items') : tied order a zs = tied order b zs :=
      h.tied_congr ha (hsub b hmem) hab hzs
    rw [hsame hsub, hsame fun c hc => hsub c (hs.perm.mem_iff.mp hc), hs.stable b hmem]

/-! ## Inserting one item after another -/

/-- In a stable sort of the items before it, an item may stand after those it does not come before,
when it comes before all others. -/
theorem IsStableSort.insert (h : Ranks order (done ++ [v]))
    (hs : IsStableSort order done (xs ++ ys)) (hxs : ∀ a ∈ xs, order a v ≠ .gt)
    (hys : ∀ a ∈ ys, order v a = .lt) : IsStableSort order (done ++ [v]) (xs ++ v :: ys) := by
  have hvmem : v ∈ done ++ [v] := List.mem_concat_self ..
  have hymem : ∀ a ∈ ys, a ∈ done ++ [v] := fun a ha =>
    List.mem_append_left _ (hs.perm.mem_iff.mp (List.mem_append_right xs ha))
  obtain ⟨hxasc, hyasc, hxy⟩ := List.pairwise_append.mp hs.ascending
  refine ⟨?_, ?_, fun a ha => ?_⟩
  · have hcons : (v :: (xs ++ ys)).Perm (v :: done) := hs.perm.cons v
    exact List.perm_middle.trans (hcons.trans (List.perm_append_singleton v done).symm)
  · refine List.pairwise_append.mpr ⟨hxasc, List.pairwise_cons.mpr ⟨?_, hyasc⟩, fun a ha b hb => ?_⟩
    · intro b hb
      simp [hys b hb]
    · rcases List.mem_cons.mp hb with rfl | hb
      · exact hxs a ha
      · exact hxy a ha b hb
  · have hdone := hs.tied_eq h (fun c => List.mem_append_left [v]) ha
    rw [tied_append] at hdone
    rw [tied_append, tied_append]
    by_cases hav : order a v = .eq
    · -- What the item comes before is not equal to it.
      have hnone : tied order a ys = [] := by
        refine tied_eq_nil_iff.mpr fun b hb hab => ?_
        have hvb := h.eq_trans hvmem ha (hymem b hb) (h.symm ha hvmem hav) hab
        cases hvb.symm.trans (hys b hb)
      rw [hnone, List.append_nil] at hdone
      rw [tied_cons_of_eq hav, tied_cons_of_eq hav, hnone, hdone]
      rfl
    · rw [tied_cons_of_ne hav, tied_cons_of_ne hav, hdone]
      exact (List.append_nil _).symm

/-- The items that an inserted one does not pass do not come after it. -/
theorem le_of_mem_dropWhile (h : Ranks order (v :: before)) (hb : Ascending order before.reverse)
    (ha : a ∈ before.dropWhile fun u => order v u = .lt) : order a v ≠ .gt := by
  have hmem : ∀ u ∈ before.dropWhile fun u => order v u = .lt, u ∈ v :: before :=
    fun u hu => List.mem_cons_of_mem v ((List.dropWhile_sublist _).subset hu)
  have hkept : Ascending order (before.dropWhile fun u => order v u = .lt).reverse :=
    List.Pairwise.sublist (List.dropWhile_sublist _).reverse hb
  have hhead := List.head?_dropWhile_not (fun u => decide (order v u = .lt)) before
  generalize before.dropWhile (fun u => order v u = .lt) = kept at *
  cases kept with
  | nil => cases ha
  | cons u us =>
      have hv : v ∈ v :: before := List.mem_cons_self ..
      have hu := hmem u (List.mem_cons_self ..)
      have huv : order u v ≠ .gt := h.total hv hu (by simpa using hhead)
      rcases List.mem_cons.mp ha with rfl | htail
      · exact huv
      · rw [List.reverse_cons] at hkept
        have hau := (List.pairwise_append.mp hkept).2.2 a (List.mem_reverse.mpr htail) u
          (List.mem_singleton_self u)
        exact h.trans a (hmem a ha) u hu v hv hau huv

/-- Inserting an item from the end keeps a stable sort one. -/
theorem IsStableSort.insertLast (h : Ranks order (done ++ [v]))
    (hs : IsStableSort order done before.reverse) :
    IsStableSort order (done ++ [v]) (insertLast order v before).reverse := by
  have hranks : Ranks order (v :: before) := h.mono fun a ha => by
    rcases List.mem_cons.mp ha with rfl | hmem
    · exact List.mem_concat_self ..
    · exact List.mem_append_left _ (hs.perm.mem_iff.mp (List.mem_reverse.mpr hmem))
  have hsplit := List.takeWhile_append_dropWhile (p := fun u => order v u = .lt) (l := before)
  have hpassed : ∀ a ∈ (before.takeWhile fun u => order v u = .lt).reverse, order v a = .lt :=
    fun a ha => by simpa using List.mem_takeWhile_imp (List.mem_reverse.mp ha)
  rw [Check.insertLast, List.reverse_append, List.reverse_cons, List.append_assoc,
    List.singleton_append]
  refine IsStableSort.insert h ?_ (fun a ha => ?_) hpassed
  · rwa [← List.reverse_append, hsplit]
  · exact le_of_mem_dropWhile hranks hs.ascending (List.mem_reverse.mp ha)

theorem foldl_insertLast_isStableSort :
    ∀ done before, Ranks order (done ++ items) → IsStableSort order done before.reverse →
      IsStableSort order (done ++ items)
        (items.foldl (fun sorted v => Check.insertLast order v sorted) before).reverse := by
  induction items with
  | nil =>
      intro done before _ hs
      rwa [List.append_nil]
  | cons v items ih =>
      intro done before h hs
      rw [List.append_cons] at h ⊢
      exact ih (done ++ [v]) _ h (hs.insertLast (h.mono fun a => List.mem_append_left _))

/-! ## Merging halves -/

/-- Whether an item may stand before another one. -/
def mayPrecede (order : Value → Value → Ordering) (a b : Value) : Bool := order a b != .gt

theorem mayPrecede_iff : mayPrecede order a b = true ↔ order a b ≠ .gt := bne_iff_ne

section Attached

-- Merging asks for a total preorder of a whole type, so the items are made a type of their own.
variable (h : Ranks order items)

include h

theorem attached_trans (x y z : { a // a ∈ items }) (hxy : mayPrecede order x y = true)
    (hyz : mayPrecede order y z = true) : mayPrecede order x z = true := by
  rw [mayPrecede_iff] at *
  exact h.trans x x.2 y y.2 z z.2 hxy hyz

theorem attached_total (x y : { a // a ∈ items }) :
    (mayPrecede order x y || mayPrecede order y x) = true := by
  rw [Bool.or_eq_true, mayPrecede_iff, mayPrecede_iff]
  by_cases hlt : order x y = .lt
  · exact .inl (by simp [hlt])
  · exact .inr (h.total x.2 y.2 hlt)

end Attached

theorem map_mergeSort_attach (order : Value → Value → Ordering) (items : List Value) :
    (items.attach.mergeSort fun x y => mayPrecede order x y).map Subtype.val =
      items.mergeSort (mayPrecede order) := by
  rw [List.map_mergeSort (s := mayPrecede order) fun _ _ _ _ => rfl, List.attach_map_subtype_val]

theorem ascending_mergeSort (h : Ranks order items) :
    Ascending order (items.mergeSort (mayPrecede order)) := by
  rw [← map_mergeSort_attach]
  refine List.pairwise_map.mpr ?_
  exact (List.pairwise_mergeSort (attached_trans h) (attached_total h) _).imp mayPrecede_iff.mp

/-- An ascending sublist of the items stays one when halves are merged. -/
theorem sublist_mergeSort (h : Ranks order items) (hys : Ascending order ys)
    (hsub : ys.Sublist items) : ys.Sublist (items.mergeSort (mayPrecede order)) := by
  rw [← List.attach_map_subtype_val items] at hsub
  obtain ⟨zs, hzs, rfl⟩ := List.sublist_map_iff.mp hsub
  rw [← map_mergeSort_attach]
  refine (List.sublist_mergeSort (attached_trans h) (attached_total h) ?_ hzs).map _
  exact (List.pairwise_map.mp hys).imp mayPrecede_iff.mpr

theorem mergeSort_isStableSort (h : Ranks order items) :
    IsStableSort order items (items.mergeSort (mayPrecede order)) := by
  have hperm := List.mergeSort_perm items (mayPrecede order)
  refine ⟨hperm, ascending_mergeSort h, fun a ha => ?_⟩
  have htied : Ascending order (tied order a items) := by
    refine List.pairwise_of_forall_mem_list fun b hb c hc => ?_
    obtain ⟨hb, hab⟩ := mem_tied.mp hb
    obtain ⟨hc, hac⟩ := mem_tied.mp hc
    simp [h.eq_trans hb ha hc (h.symm ha hb hab) hac]
  have hsub := (sublist_mergeSort h htied List.filter_sublist).filter fun b => order a b = .eq
  have hagain : (tied order a items).filter (fun b => order a b = .eq) = tied order a items :=
    List.filter_eq_self.mpr fun b hb => by simp [(mem_tied.mp hb).2]
  rw [hagain] at hsub
  exact (hsub.eq_of_length (hperm.filter _).length_eq.symm).symm

/-! ## Sorting -/

/-- Sorting by either method gives the stable sort. -/
theorem sortItems_isStableSort (h : Ranks order items) :
    IsStableSort order items (sortItems order items) := by
  unfold sortItems
  split
  · have hnil : IsStableSort order [] (List.reverse []) := ⟨.refl _, .nil, nofun⟩
    exact foldl_insertLast_isStableSort [] [] h hnil
  · exact mergeSort_isStableSort h

/-! ## Neighbours -/

theorem ascending_cons_cons_iff (h : Ranks order (a :: b :: items)) :
    Ascending order (a :: b :: items) ↔ order a b ≠ .gt ∧ Ascending order (b :: items) := by
  unfold Ascending
  rw [List.pairwise_cons]
  refine and_congr_left fun hb => ⟨fun hall => hall b (List.mem_cons_self ..), fun hab c hc => ?_⟩
  rcases List.mem_cons.mp hc with rfl | hmem
  · exact hab
  · have hbc := (List.pairwise_cons.mp hb).1 c hmem
    exact h.trans a (by simp) b (by simp) c (by simp [hmem]) hab hbc

/-- Neighbours decide about all pairs. -/
theorem firstDescent?_eq_none_iff (h : Ranks order items) :
    firstDescent? order items = none ↔ Ascending order items := by
  induction items with
  | nil => exact iff_of_true rfl .nil
  | cons a items ih =>
      cases items with
      | nil => exact iff_of_true rfl (List.pairwise_singleton _ _)
      | cons b items =>
          have hrest : Ranks order (b :: items) := h.mono fun c => List.mem_cons_of_mem a
          rw [ascending_cons_cons_iff h, ← ih hrest, firstDescent?]
          split
          next hgt => simp [hgt]
          next hle => simp [hle]

theorem descendsFirst_of_firstDescent? (h : firstDescent? order items = some (a, b)) :
    ∃ i, DescendsFirst order items i a b := by
  induction items with
  | nil => cases h
  | cons c items ih =>
      cases items with
      | nil => cases h
      | cons d items =>
          rw [firstDescent?] at h
          split at h
          next hgt =>
              obtain ⟨rfl, rfl⟩ := Prod.mk.inj (Option.some.inj h)
              exact ⟨0, rfl, rfl, hgt, nofun⟩
          next hle =>
              obtain ⟨i, hleft, hright, hdescends, hfirst⟩ := ih h
              refine ⟨i + 1, hleft, hright, hdescends, fun j u w hj hu hw => ?_⟩
              cases j with
              | zero =>
                  obtain rfl := Option.some.inj hu
                  obtain rfl := Option.some.inj hw
                  exact hle
              | succ j => exact hfirst j u w (Nat.lt_of_succ_lt_succ hj) hu hw

end Sorting

/-! ## The check that sorts -/

section Verdict

variable {order : Option (Value → Value → Ordering)} {v : Value} {items : List Value}

theorem evaluate_sorted_of_ascending (hv : v.asItems? = some items)
    (h : Ranks (order.getD Value.order) items) (hasc : Ascending (order.getD Value.order) items)
    (converts : Bool) : (sorted order converts).evaluate v = .pass := by
  rw [evaluate, evaluateSorted, hv]
  simp only [(firstDescent?_eq_none_iff h).mpr hasc]

/-- What is not in ascending order has a first descent, which the verdict is about. -/
theorem evaluate_sorted_of_not_ascending (hv : v.asItems? = some items)
    (h : Ranks (order.getD Value.order) items) (hasc : ¬ Ascending (order.getD Value.order) items) :
    ∃ i a b, DescendsFirst (order.getD Value.order) items i a b ∧
      (sorted order true).evaluate v =
        .rewrite (withItems v (sortItems (order.getD Value.order) items)) ∧
      (sorted order false).evaluate v = .fail (.array [a, b]) := by
  have hsome : firstDescent? (order.getD Value.order) items ≠ none :=
    mt (firstDescent?_eq_none_iff h).mp hasc
  obtain ⟨⟨a, b⟩, hab⟩ := Option.ne_none_iff_exists'.mp hsome
  obtain ⟨i, hfirst⟩ := descendsFirst_of_firstDescent? hab
  refine ⟨i, a, b, hfirst, ?_, ?_⟩ <;> rw [evaluate, evaluateSorted, hv] <;> simp [hab]

/-- What a check that sorts leaves. -/
theorem leftBy_sorted (hv : v.asItems? = some items) (h : Ranks (order.getD Value.order) items)
    (message : Option String) :
    leftBy [⟨.sorted order true, message⟩] v =
      some (withItems v (sortItems (order.getD Value.order) items)) := by
  rw [leftBy]
  by_cases hasc : Ascending (order.getD Value.order) items
  · have hsorted := hasc.isStableSort.unique h (sortItems_isStableSort h)
    simp only [evaluate_sorted_of_ascending hv h hasc, leftBy, hsorted, withItems_self hv]
  · obtain ⟨i, a, b, -, hrewrite, -⟩ := evaluate_sorted_of_not_ascending hv h hasc
    simp only [hrewrite, leftBy]

/-- A check that sorts by an order which ranks the items puts them in ascending order and equal ones
in their old order, which is one list.  It passes then, with or without conversion.  A check without
conversion passes items of which none comes after a later one, which are those that sorting leaves
as they are, and else reports the first neighbours in descending order. -/
theorem sorted_ranks_items (order : Option (Value → Value → Ordering)) {v : Value}
    {items : List Value} (hv : v.asItems? = some items)
    (h : Ranks (order.getD Value.order) items) (message : Option String) :
    ∃ ranked, IsStableSort (order.getD Value.order) items ranked ∧
      (∀ other, IsStableSort (order.getD Value.order) items other → other = ranked) ∧
      leftBy [⟨.sorted order true, message⟩] v = some (withItems v ranked) ∧
      (∀ converts, (sorted order converts).evaluate (withItems v ranked) = .pass) ∧
      ((sorted order false).evaluate v = .pass ↔ Ascending (order.getD Value.order) items) ∧
      (¬ Ascending (order.getD Value.order) items →
        ∃ i a b, DescendsFirst (order.getD Value.order) items i a b ∧
          (sorted order false).evaluate v = .fail (.array [a, b])) ∧
      (leftBy [⟨.sorted order true, message⟩] v = some v ↔
        (sorted order false).evaluate v = .pass) := by
  have hstable := sortItems_isStableSort h
  have hleft := leftBy_sorted hv h message
  have hpass : (sorted order false).evaluate v = .pass ↔
      Ascending (order.getD Value.order) items := by
    refine ⟨fun hpass => ?_, fun hasc => evaluate_sorted_of_ascending hv h hasc false⟩
    by_contra hasc
    obtain ⟨i, a, b, -, -, hfail⟩ := evaluate_sorted_of_not_ascending hv h hasc
    cases hpass.symm.trans hfail
  refine ⟨_, hstable, fun other => hstable.unique h, hleft, fun converts => ?_, hpass,
    fun hasc => ?_, ?_⟩
  · have hranks := h.mono fun a => hstable.perm.mem_iff.mp
    exact evaluate_sorted_of_ascending (asItems?_withItems hv _) hranks hstable.ascending converts
  · obtain ⟨i, a, b, hfirst, -, hfail⟩ := evaluate_sorted_of_not_ascending hv h hasc
    exact ⟨i, a, b, hfirst, hfail⟩
  · rw [hleft, hpass]
    constructor
    · intro hsame
      have hitems := (asItems?_withItems hv _).symm.trans
        ((congrArg Value.asItems? (Option.some.inj hsame)).trans hv)
      exact Option.some.inj hitems ▸ hstable.ascending
    · intro hasc
      rw [hasc.isStableSort.unique h hstable, withItems_self hv]

/-- One, a zero, and the other zero, which is equal to it. -/
def oneAndZeros : List Value := [.ofNat 1, .number (.zero false), .number (.zero true)]

/-- The zeros come before one, in their old order. -/
theorem sorted_ranks_oneAndZeros :
    IsStableSort Value.order oneAndZeros
        [.number (.zero false), .number (.zero true), .ofNat 1] ∧
      leftBy [⟨.sorted none true, none⟩] (.array oneAndZeros) =
        some (.array [.number (.zero false), .number (.zero true), .ofNat 1]) ∧
      (sorted none false).evaluate (.array oneAndZeros) =
        .fail (.array [.ofNat 1, .number (.zero false)]) := by
  have hexact : ∀ a ∈ oneAndZeros, a.IsExact := by
    have hnumber (x : Double) : (Value.number x).IsExact :=
      .flat (fun _ => Value.noConfusion) rfl rfl
    intro a ha
    simp only [oneAndZeros, List.mem_cons, List.not_mem_nil, or_false] at ha
    rcases ha with rfl | rfl | rfl <;> exact hnumber _
  have hv : (Value.array oneAndZeros).asItems? = some oneAndZeros := rfl
  obtain ⟨ranked, hstable, -, hleft, -⟩ := sorted_ranks_items none hv (ranks_of_isExact hexact) none
  have hcomputed : leftBy [⟨.sorted none true, none⟩] (.array oneAndZeros) =
    some (.array [.number (.zero false), .number (.zero true), .ofNat 1]) := rfl
  obtain rfl := Value.array.inj (Option.some.inj (hleft.symm.trans hcomputed))
  exact ⟨hstable, hcomputed, rfl⟩

end Verdict

end Check

end ValueSchema

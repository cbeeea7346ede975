import Mathlib.Data.List.Induction
import ValueSchema.Proofs.Alike
import ValueSchema.Proofs.Items
import ValueSchema.Proofs.Policies
import ValueSchema.Proofs.WellBuilt

/-!
# Dropping repeated items

Which items are kept is said by positions: a position is chosen just when no earlier chosen one has
an item that is identified with its own (`Value.ChoosesFirst`).  This chooses in one way, whatever
items are identified, and the kept items are those at the chosen positions
(`Value.ChoosesFirst.keepFirst_eq`).  The first item at another position is the one that a check
without conversion reports (`Check.firstRepeat?_eq`).

Both are inductions on the items from the end, since what becomes of an item depends on those before
it.  `Check.unique_keeps_first` is about the check, and about arrays and sets whose items are
compared by structure: to drop the repeated items of an array leaves what its conversion to a set
leaves, be it the output that is converted or the input.
-/

namespace ValueSchema

namespace Value

/-! ## Items at chosen positions -/

/-- The items at the chosen positions, in their order. -/
def selected (chosen : Nat → Bool) (items : List Value) : List Value :=
  (items.zipIdx.filter fun e => chosen e.2).map Prod.fst

/-- Whether an item at a position is identified with no earlier chosen one. -/
def NewAt (same : Value → Value → Bool) (items : List Value) (chosen : Nat → Bool) (j : Nat)
    (w : Value) : Prop :=
  ∀ k u, k < j → chosen k = true → items[k]? = some u → same u w = false

/-- A choice of just those positions whose item is identified with no earlier chosen one. -/
def ChoosesFirst (same : Value → Value → Bool) (items : List Value) (chosen : Nat → Bool) : Prop :=
  ∀ j w, items[j]? = some w → (chosen j = true ↔ NewAt same items chosen j w)

section Selected

variable {same : Value → Value → Bool} {chosen chosen' : Nat → Bool} {items : List Value}
  {v : Value}

theorem selected_concat (chosen : Nat → Bool) (items : List Value) (v : Value) :
    selected chosen (items ++ [v]) =
      selected chosen items ++ if chosen items.length then [v] else [] := by
  rw [selected, List.zipIdx_append, List.filter_append, List.map_append]
  refine congrArg (selected chosen items ++ ·) ?_
  cases h : chosen items.length <;> simp [h]

theorem mem_selected : v ∈ selected chosen items ↔ ∃ k, chosen k = true ∧ items[k]? = some v := by
  simp [selected, List.mem_zipIdx_iff_getElem?, and_comm]

theorem selected_sublist (chosen : Nat → Bool) (items : List Value) :
    (selected chosen items).Sublist items := by
  have h : ((items.zipIdx.filter fun e => chosen e.2).map Prod.fst).Sublist
      (items.zipIdx.map Prod.fst) := List.filter_sublist.map _
  rwa [List.zipIdx_map_fst] at h

theorem selected_congr (h : ∀ j < items.length, chosen j = chosen' j) :
    selected chosen items = selected chosen' items := by
  refine congrArg (List.map Prod.fst) (List.filter_congr fun e he => h e.2 ?_)
  exact (List.getElem?_eq_some_iff.mp (List.mem_zipIdx_iff_getElem?.mp he)).1

/-- No item stands at another position just when the chosen items are all. -/
theorem selected_not_eq_nil_iff :
    selected (fun j => !chosen j) items = [] ↔ selected chosen items = items := by
  have hall : selected (fun j => !chosen j) items = [] ↔
      (items.zipIdx.filter fun e => chosen e.2) = items.zipIdx := by
    rw [selected, List.map_eq_nil_iff, List.filter_eq_nil_iff, List.filter_eq_self]
    simp
  rw [hall]
  constructor
  · intro h
    rw [selected, h, List.zipIdx_map_fst]
  · intro h
    refine List.filter_sublist.eq_of_length ?_
    have hlength := congrArg List.length h
    rwa [selected, List.length_map, ← List.length_zipIdx (l := items)] at hlength

/-! ## The choice -/

theorem newAt_congr {items' : List Value} {j : Nat}
    (hitems : ∀ k < j, items[k]? = items'[k]?) (hchosen : ∀ k < j, chosen k = chosen' k) :
    NewAt same items chosen j v ↔ NewAt same items' chosen' j v := by
  refine forall₂_congr fun k u => forall_congr' fun hk => ?_
  rw [hitems k hk, hchosen k hk]

/-- An item at the end is compared with the chosen ones. -/
theorem newAt_length_iff :
    NewAt same items chosen items.length v ↔ (selected chosen items).any (same · v) = false := by
  simp only [List.any_eq_false, mem_selected, Bool.not_eq_true]
  constructor
  · rintro h u ⟨k, hc, hu⟩
    exact h k u (List.getElem?_eq_some_iff.mp hu).1 hc hu
  · exact fun h k u _ hc hu => h u ⟨k, hc, hu⟩

/-- A choice for one more item is one for the items before it, and chooses the last position when
its item is identified with none of those chosen. -/
theorem choosesFirst_concat_iff :
    ChoosesFirst same (items ++ [v]) chosen ↔
      ChoosesFirst same items chosen ∧
        (chosen items.length = true ↔ (selected chosen items).any (same · v) = false) := by
  have hold : ∀ j < items.length, (items ++ [v])[j]? = items[j]? :=
    fun j hj => List.getElem?_append_left hj
  have hnew (j : Nat) (hj : j ≤ items.length) (w : Value) :
      NewAt same (items ++ [v]) chosen j w ↔ NewAt same items chosen j w :=
    newAt_congr (fun k hk => hold k (Nat.lt_of_lt_of_le hk hj)) fun _ _ => rfl
  have hlast : (items ++ [v])[items.length]? = some v := List.getElem?_concat_length
  rw [← newAt_length_iff, ← hnew _ (Nat.le_refl _)]
  constructor
  · refine fun h => ⟨fun j w hw => ?_, h items.length v hlast⟩
    have hj := (List.getElem?_eq_some_iff.mp hw).1
    rw [← hnew j (Nat.le_of_lt hj)]
    exact h j w ((hold j hj).trans hw)
  · rintro ⟨h, hv⟩ j w hw
    rcases Nat.lt_or_ge j items.length with hj | hj
    · rw [hnew j (Nat.le_of_lt hj)]
      exact h j w ((hold j hj).symm.trans hw)
    · have hlength := (List.getElem?_eq_some_iff.mp hw).1
      rw [List.length_append, List.length_singleton] at hlength
      obtain rfl : j = items.length := by omega
      obtain rfl := Option.some.inj (hlast.symm.trans hw)
      exact hv

theorem exists_choosesFirst (same : Value → Value → Bool) (items : List Value) :
    ∃ chosen, ChoosesFirst same items chosen := by
  induction items using List.reverseRecOn with
  | nil => exact ⟨fun _ => true, nofun⟩
  | append_singleton items v ih =>
      obtain ⟨chosen, h⟩ := ih
      let next (j : Nat) : Bool :=
        if j < items.length then chosen j else !(selected chosen items).any (same · v)
      have hbefore : ∀ j < items.length, next j = chosen j := fun j hj => if_pos hj
      refine ⟨next, choosesFirst_concat_iff.mpr ⟨fun j w hw => ?_, ?_⟩⟩
      · have hj := (List.getElem?_eq_some_iff.mp hw).1
        rw [hbefore j hj, h j w hw]
        exact newAt_congr (fun _ _ => rfl) fun k hk => (hbefore k (Nat.lt_trans hk hj)).symm
      · have hlast : next items.length = !(selected chosen items).any (same · v) :=
          if_neg (Nat.lt_irrefl _)
        rw [hlast, selected_congr hbefore, Bool.not_eq_true']

theorem keepFirst_concat (same : Value → Value → Bool) (items : List Value) (v : Value) :
    keepFirst same (items ++ [v]) =
      if (keepFirst same items).any (same · v) then keepFirst same items
      else keepFirst same items ++ [v] := by
  rw [keepFirst, List.foldl_append]
  rfl

/-- The kept items are those at the chosen positions. -/
theorem ChoosesFirst.keepFirst_eq (h : ChoosesFirst same items chosen) :
    keepFirst same items = selected chosen items := by
  induction items using List.reverseRecOn with
  | nil => rfl
  | append_singleton items v ih =>
      obtain ⟨hbefore, hlast⟩ := choosesFirst_concat_iff.mp h
      rw [keepFirst_concat, selected_concat, ih hbefore]
      cases hany : (selected chosen items).any (same · v) with
      | true =>
          have hchosen : chosen items.length = false := by simpa [hany] using hlast
          rw [if_pos rfl, hchosen, if_neg Bool.false_ne_true, List.append_nil]
      | false => rw [if_neg Bool.false_ne_true, if_pos (hlast.mpr hany)]

theorem keepFirst_sublist (same : Value → Value → Bool) (items : List Value) :
    (keepFirst same items).Sublist items := by
  obtain ⟨chosen, h⟩ := exists_choosesFirst same items
  rw [h.keepFirst_eq]
  exact selected_sublist chosen items

/-- Items of which no two are identified are all kept. -/
theorem keepFirst_eq_self (h : items.Pairwise fun a b => same a b = false) :
    keepFirst same items = items := by
  induction items using List.reverseRecOn with
  | nil => rfl
  | append_singleton items v ih =>
      obtain ⟨hbefore, -, hlast⟩ := List.pairwise_append.mp h
      have hany : items.any (same · v) = false :=
        List.any_eq_false.mpr fun u hu => by simp [hlast u hu v (List.mem_singleton_self v)]
      rw [keepFirst_concat, ih hbefore, hany, if_neg Bool.false_ne_true]

/-! ## Images of the kept items -/

/-- Every item is kept or identified with a kept one. -/
theorem kept_or_any (same : Value → Value → Bool) (h : v ∈ items) :
    v ∈ keepFirst same items ∨ (keepFirst same items).any (same · v) = true := by
  induction items using List.reverseRecOn with
  | nil => cases h
  | append_singleton items w ih =>
      have hgrow : (keepFirst same items).Sublist (keepFirst same (items ++ [w])) := by
        rw [keepFirst_concat]
        split
        next => exact .refl _
        next => exact List.sublist_append_left _ _
      have hany (hold : (keepFirst same items).any (same · v) = true) :
          (keepFirst same (items ++ [w])).any (same · v) = true := by
        obtain ⟨u, hu, huv⟩ := List.any_eq_true.mp hold
        exact List.any_eq_true.mpr ⟨u, hgrow.subset hu, huv⟩
      rcases List.mem_append.mp h with hmem | hmem
      · exact (ih hmem).imp (fun hv => hgrow.subset hv) hany
      · obtain rfl := List.mem_singleton.mp hmem
        cases hnew : (keepFirst same items).any (same · v) with
        | true => exact .inr (hany hnew)
        | false =>
            rw [keepFirst_concat, hnew, if_neg Bool.false_ne_true]
            exact .inl (List.mem_concat_self ..)

/-- A transitive relation identifies an item with a kept one when it identifies it with any. -/
theorem any_keepFirst {u : Value}
    (htrans : ∀ a b c, same a b = true → same b c = true → same a c = true) (hu : u ∈ items)
    (huv : same u v = true) : (keepFirst same items).any (same · v) = true := by
  rcases kept_or_any same hu with hkept | hany
  · exact List.any_eq_true.mpr ⟨u, hkept, huv⟩
  · obtain ⟨w, hw, hwu⟩ := List.any_eq_true.mp hany
    exact List.any_eq_true.mpr ⟨w, hw, htrans _ _ _ hwu huv⟩

/-- Equal items are dropped before or after a function that respects equality. -/
theorem distinct_map_distinct {f : Value → Value}
    (hf : ∀ u ∈ items, ∀ w ∈ items, (u == w) = true → (f u == f w) = true) :
    distinct ((distinct items).map f) = distinct (items.map f) := by
  unfold distinct
  induction items using List.reverseRecOn with
  | nil => rfl
  | append_singleton items v ih =>
      specialize ih fun u hu w hw =>
        hf u (List.mem_append_left _ hu) w (List.mem_append_left _ hw)
      rw [keepFirst_concat, List.map_append, List.map_singleton, keepFirst_concat, ← ih]
      split
      next hany =>
          obtain ⟨u, hu, huv⟩ := List.any_eq_true.mp hany
          have hfuv := hf u (List.mem_append_left _ (mem_of_mem_keepFirst hu)) v
            (List.mem_concat_self ..) huv
          have htrans : ∀ a b c : Value, (a == b) = true → (b == c) = true → (a == c) = true :=
            fun _ _ _ => equal_trans
          rw [if_pos (any_keepFirst htrans (List.mem_map_of_mem hu) hfuv)]
      next => rw [List.map_append, List.map_singleton, keepFirst_concat]

end Selected

end Value

namespace Check

open Value (ChoosesFirst selected)

variable {same : Value → Value → Bool} {chosen : Nat → Bool} {items : List Value}

theorem firstRepeat?_concat (same : Value → Value → Bool) (v : Value) (items : List Value) :
    ∀ earlier, firstRepeat? same earlier (items ++ [v]) =
      (firstRepeat? same earlier items).or
        (if (earlier ++ items).any (same · v) then some v else none) := by
  induction items with
  | nil =>
      intro earlier
      rw [List.nil_append, List.append_nil, firstRepeat?, firstRepeat?, firstRepeat?,
        Option.none_or]
  | cons w items ih =>
      intro earlier
      rw [List.cons_append, firstRepeat?, firstRepeat?]
      split
      next => rfl
      next => rw [ih, List.append_assoc, List.singleton_append]

/-- The first item that is identified with an earlier one is the first at no chosen position. -/
theorem firstRepeat?_eq (h : ChoosesFirst same items chosen) :
    firstRepeat? same [] items = (selected (fun j => !chosen j) items).head? := by
  induction items using List.reverseRecOn with
  | nil => rfl
  | append_singleton items v ih =>
      obtain ⟨hbefore, hlast⟩ := Value.choosesFirst_concat_iff.mp h
      rw [firstRepeat?_concat, ih hbefore, Value.selected_concat, List.head?_append,
        List.nil_append]
      cases hnone : selected (fun j => !chosen j) items with
      | cons u us => rfl
      | nil =>
          -- Nothing was dropped before, so the chosen items are all.
          rw [Value.selected_not_eq_nil_iff.mp hnone] at hlast
          cases hany : items.any (same · v) <;> simp_all

/-! ## Verdicts -/

section Verdict

variable {v : Value} (hv : v.asItems? = some items) (same : Option (Value → Value → Bool))

include hv

theorem evaluate_unique_converting :
    let kept := Value.keepFirst (same.getD (· == ·)) items
    (unique same true).evaluate v =
      if kept.length = items.length then .pass else .rewrite (withItems v kept) := by
  rw [evaluate, evaluateUnique, hv]
  rfl

/-- What a check that drops repeated items leaves. -/
theorem leftBy_unique (message : Option String) :
    leftBy [⟨.unique same true, message⟩] v =
      some (withItems v (Value.keepFirst (same.getD (· == ·)) items)) := by
  rw [leftBy, evaluate_unique_converting hv]
  split
  next hpass =>
      split at hpass
      next hlength =>
          have hkept := (Value.keepFirst_sublist _ items).eq_of_length hlength
          rw [hkept, withItems_self hv, leftBy]
      next => cases hpass
  next w hrewrite =>
      split at hrewrite
      next => cases hrewrite
      next => rw [← Verdict.rewrite.inj hrewrite, leftBy]
  next hfail => split at hfail <;> cases hfail

/-- Items of which no two are identified pass. -/
theorem evaluate_unique_converting_pass
    (h : items.Pairwise fun a b => same.getD (· == ·) a b = false) :
    (unique same true).evaluate v = .pass := by
  rw [evaluate_unique_converting hv, Value.keepFirst_eq_self h, if_pos rfl]

theorem evaluate_unique_fail_iff (w : Value) :
    (unique same false).evaluate v = .fail w ↔
      firstRepeat? (same.getD (· == ·)) [] items = some w := by
  rw [evaluate, evaluateUnique, hv]
  cases h : firstRepeat? (same.getD (· == ·)) [] items <;> simp [h]

end Verdict

end Check

/-! ## Arrays and sets -/

namespace Schema

/-- What the items of a list are parsed to with one schema, if all of them are accepted. -/
def ItemOutputs (call : Call) (hops : Nat) (path : Path) (element : Schema)
    (items outputs : List Value) : Prop :=
  ∃ f : Part → Value,
    (∀ p ∈ itemParts element items, (p.visit hops path).outcome call = .ok (.success (f p))) ∧
      (itemParts element items).map f = outputs

section Containers

variable {s element : Schema} {call : Call} {hops : Nat} {path : Path} {v w : Value}
  {items : List Value}

theorem itemOutputs_map {f : Value → Value}
    (h : ∀ w ∈ items, (element.parseFresh call w).1 = .ok (.success (f w))) :
    ItemOutputs call (hopsOf call) .root element items (items.map f) := by
  refine ⟨fun p => f p.value, fun p hp => ?_, ?_⟩
  · rw [itemParts, List.mem_mapIdx] at hp
    obtain ⟨i, hi, rfl⟩ := hp
    exact (Visit.success_under ⟨[.index i]⟩ (element.rootVisit call items[i])).mpr
      (h _ (List.getElem_mem hi))
  · have hvalues : (itemParts element items).map Part.value = items := by
      rw [itemParts, List.mapIdx_eq_zipIdx_map, List.map_map]
      exact List.zipIdx_map_fst 0 items
    calc (itemParts element items).map (fun p => f p.value)
      _ = ((itemParts element items).map Part.value).map f := List.map_map.symm
      _ = items.map f := congrArg (List.map f) hvalues

/-- An array or a set that is not measured succeeds with what its checks leave when all its parts
succeed. -/
theorem unmeasured_success_iff (hk : s.kind = .array element ∨ s.kind = .set element)
    (hsizes : ∀ e ∈ s.checks.entries, e.kind.isSize = false) :
    Visit.outcome call ⟨hops, s, path, v⟩ = .ok (.success w) ↔
      ∃ parts, s.parts? v call.options.arena = some parts ∧ ∃ f : Part → Value,
        (∀ p ∈ parts, (p.visit hops path).outcome call = .ok (.success (f p))) ∧
        ∃ u, leftBy s.checks.entries (s.assemble v parts (parts.map f)) = some u ∧
          s.castOutput u = w := by
  have hplan : s.plan call path v hops = s.containerPlan call path v hops := by
    rcases hk with hk | hk <;> rw [plan, hk]
  have hown : s.ownIssues call path v = [] := by
    have hnone : s.checks.entries.filter (fun e => e.kind.isSize) = [] :=
      List.filter_eq_nil_iff.mpr fun e he => by simp [hsizes e he]
    have hchecked : (s.checked call path CheckKind.isSize (s.containerInput v)).1 = [] := by
      rw [checked, hnone]
      rfl
    unfold ownIssues
    rcases hk with hk | hk <;> rw [hk] <;> exact hchecked
  have hlater : s.checks.entries.filter (fun e => s.runsLater e.kind) = s.checks.entries := by
    refine List.filter_eq_self.mpr fun e he => ?_
    rcases hk with hk | hk <;> simp [runsLater, hk, hsizes e he]
  rw [Visit.outcome_eq, Visit.plan, hplan, containerPlan_success_iff, hlater]
  simp only [hown, true_and]

theorem array_success_iff (hk : s.kind = .array element)
    (hsizes : ∀ e ∈ s.checks.entries, e.kind.isSize = false) :
    Visit.outcome call ⟨hops, s, path, v⟩ = .ok (.success w) ↔
      ∃ items outputs, s.settings.arrayInput v = .array items ∧
        ItemOutputs call hops path element items outputs ∧
        ∃ u, leftBy s.checks.entries (.array outputs) = some u ∧ s.settings.arrayOutput u = w := by
  have hinput : s.containerInput v = s.settings.arrayInput v := by rw [containerInput, hk]
  have houtput (u : Value) : s.castOutput u = s.settings.arrayOutput u := by rw [castOutput, hk]
  rw [unmeasured_success_iff (.inl hk) hsizes]
  constructor
  · rintro ⟨parts, hparts, f, hf, u, hu, hw⟩
    obtain ⟨items, hitems, rfl⟩ := (parts?_array_iff hk).mp hparts
    rw [assemble_array hk] at hu
    exact ⟨items, _, hinput ▸ hitems, ⟨f, hf, rfl⟩, u, hu, houtput u ▸ hw⟩
  · rintro ⟨items, outputs, hitems, ⟨f, hf, rfl⟩, u, hu, hw⟩
    refine ⟨_, (parts?_array_iff hk).mpr ⟨items, hinput.trans hitems, rfl⟩, f, hf, u, ?_,
      (houtput u).trans hw⟩
    rwa [assemble_array hk]

theorem set_success_iff (hk : s.kind = .set element)
    (hsizes : ∀ e ∈ s.checks.entries, e.kind.isSize = false) :
    Visit.outcome call ⟨hops, s, path, v⟩ = .ok (.success w) ↔
      ∃ items outputs, s.settings.setInput v = .set items ∧
        ItemOutputs call hops path element items outputs ∧
        ∃ u, leftBy s.checks.entries (.set (Value.distinct outputs)) = some u ∧
          s.settings.setOutput u = w := by
  have hinput : s.containerInput v = s.settings.setInput v := by rw [containerInput, hk]
  have houtput (u : Value) : s.castOutput u = s.settings.setOutput u := by rw [castOutput, hk]
  rw [unmeasured_success_iff (.inr hk) hsizes]
  constructor
  · rintro ⟨parts, hparts, f, hf, u, hu, hw⟩
    obtain ⟨items, hitems, rfl⟩ := (parts?_set_iff hk).mp hparts
    rw [assemble_set hk] at hu
    exact ⟨items, _, hinput ▸ hitems, ⟨f, hf, rfl⟩, u, hu, houtput u ▸ hw⟩
  · rintro ⟨items, outputs, hitems, ⟨f, hf, rfl⟩, u, hu, hw⟩
    refine ⟨_, (parts?_set_iff hk).mpr ⟨items, hinput.trans hitems, rfl⟩, f, hf, u, ?_,
      (houtput u).trans hw⟩
    rwa [assemble_set hk]

end Containers

/-! ## Three ways to drop repeated items -/

/-- An array whose repeated items are dropped. -/
def distinctArray (element : Schema) : Build Schema := do
  (← make (.array element)).apply .distinct

/-- An array that is converted to a set. -/
def arrayToSet (element : Schema) : Build Schema := do
  (← make (.array element)).apply .cast

/-- A set that accepts an array. -/
def setOfArray (element : Schema) : Build Schema := do
  (← make (.set element)).apply .coerce

section Distinct

variable {element s : Schema} {call : Call} {hops : Nat} {path : Path} {v w : Value}
  {items outputs : List Value}

theorem distinctArray_makes (element : Schema) :
    (distinctArray element).Makes fun s =>
      s.kind = .array element ∧ s.checks.entries = [⟨.unique none true, none⟩] ∧
        s.settings = {} :=
  fun _ => ⟨rfl, rfl, rfl⟩

theorem arrayToSet_makes (element : Schema) :
    (arrayToSet element).Makes fun s =>
      s.kind = .array element ∧ s.checks.entries = [] ∧ s.settings = { casts := true } :=
  fun _ => ⟨rfl, rfl, rfl⟩

theorem setOfArray_makes (element : Schema) :
    (setOfArray element).Makes fun s =>
      s.kind = .set element ∧ s.checks.entries = [] ∧ s.settings = { coerces := true } :=
  fun _ => ⟨rfl, rfl, rfl⟩

theorem arrayInput_of_keeps {settings : Settings} (h : settings.coerces = false) :
    settings.arrayInput v = v := by
  cases v with
  | set items => simp [Settings.arrayInput, h]
  | _ => rfl

/-- An array whose repeated items are dropped succeeds with the distinct outputs of its items. -/
theorem distinctArray_success_iff (hk : s.kind = .array element)
    (hchecks : s.checks.entries = [⟨.unique none true, none⟩]) (hsettings : s.settings = {}) :
    Visit.outcome call ⟨hops, s, path, v⟩ = .ok (.success w) ↔
      ∃ items outputs, v = .array items ∧ ItemOutputs call hops path element items outputs ∧
        w = .array (Value.distinct outputs) := by
  have hsizes : ∀ e ∈ s.checks.entries, e.kind.isSize = false := by
    simp [hchecks, CheckEntry.kind, Check.kind, CheckKind.isSize]
  rw [array_success_iff hk hsizes, hchecks, hsettings, arrayInput_of_keeps rfl]
  refine exists₂_congr fun items outputs => and_congr_right' (and_congr_right' ?_)
  rw [Check.leftBy_unique rfl]
  simp [Settings.arrayOutput, Check.withItems, Value.distinct, eq_comm]

/-- An array that is converted to a set succeeds with the distinct outputs of its items. -/
theorem arrayToSet_success_iff (hk : s.kind = .array element) (hchecks : s.checks.entries = [])
    (hsettings : s.settings = { casts := true }) :
    Visit.outcome call ⟨hops, s, path, v⟩ = .ok (.success w) ↔
      ∃ items outputs, v = .array items ∧ ItemOutputs call hops path element items outputs ∧
        w = .set (Value.distinct outputs) := by
  have hsizes : ∀ e ∈ s.checks.entries, e.kind.isSize = false := by simp [hchecks]
  rw [array_success_iff hk hsizes, hchecks, hsettings, arrayInput_of_keeps rfl]
  refine exists₂_congr fun items outputs => and_congr_right' (and_congr_right' ?_)
  simp [leftBy, Settings.arrayOutput, Value.items, Value.asItems?, eq_comm]

/-- A set that accepts an array parses its distinct items. -/
theorem setOfArray_success_iff (hk : s.kind = .set element) (hchecks : s.checks.entries = [])
    (hsettings : s.settings = { coerces := true }) :
    Visit.outcome call ⟨hops, s, path, .array items⟩ = .ok (.success w) ↔
      ∃ outputs, ItemOutputs call hops path element (Value.distinct items) outputs ∧
        w = .set (Value.distinct outputs) := by
  have hsizes : ∀ e ∈ s.checks.entries, e.kind.isSize = false := by simp [hchecks]
  rw [set_success_iff hk hsizes, hchecks, hsettings]
  simp [Settings.setInput, Settings.setOutput, leftBy, eq_comm]

/-- To drop the repeated items of an array leaves what its conversion to a set leaves. -/
theorem distinctArray_iff_arrayToSet (element : Schema) :
    (distinctArray element).Makes fun a => (arrayToSet element).Makes fun b =>
      ∀ call hops path v ws,
        Visit.outcome call ⟨hops, a, path, v⟩ = .ok (.success (.array ws)) ↔
          Visit.outcome call ⟨hops, b, path, v⟩ = .ok (.success (.set ws)) := by
  intro n m call hops path v ws
  obtain ⟨hk, hchecks, hsettings⟩ := distinctArray_makes element n
  obtain ⟨hk', hchecks', hsettings'⟩ := arrayToSet_makes element m
  rw [distinctArray_success_iff hk hchecks hsettings,
    arrayToSet_success_iff hk' hchecks' hsettings']
  simp only [Value.array.injEq, Value.set.injEq]

/-- An array of accepted items, whose repeated items are dropped, and the set it is converted to on
the way in have the same items when equal items have equal outputs. -/
theorem distinctArray_and_setOfArray (element : Schema) :
    (distinctArray element).Makes fun a => (setOfArray element).Makes fun c =>
      ∀ call f items,
        (∀ w ∈ items, (element.parseFresh call w).1 = .ok (.success (f w))) →
        (∀ u ∈ items, ∀ w ∈ items, (u == w) = true → (f u == f w) = true) →
          (a.parseFresh call (.array items)).1 =
              .ok (.success (.array (Value.distinct (items.map f)))) ∧
            (c.parseFresh call (.array items)).1 =
              .ok (.success (.set (Value.distinct (items.map f)))) := by
  intro n m call f items hitems hf
  obtain ⟨hk, hchecks, hsettings⟩ := distinctArray_makes element n
  obtain ⟨hk', hchecks', hsettings'⟩ := setOfArray_makes element m
  have hkept : ∀ w ∈ Value.distinct items,
      (element.parseFresh call w).1 = .ok (.success (f w)) :=
    fun w hw => hitems w (Value.mem_of_mem_keepFirst hw)
  rw [parseFresh_fst, parseFresh_fst, rootVisit, rootVisit,
    distinctArray_success_iff hk hchecks hsettings, setOfArray_success_iff hk' hchecks' hsettings']
  refine ⟨⟨items, _, rfl, itemOutputs_map hitems, rfl⟩, _, itemOutputs_map hkept, ?_⟩
  rw [Value.distinct_map_distinct hf]

end Distinct

end Schema

/-! ## The check that drops repeated items -/

namespace Check

open Value (ChoosesFirst selected)

/-- A check that drops repeated items leaves those that no earlier one it leaves is identified with,
and changes them no more.  The check without conversion fails just when an item is dropped, and
reports the first one.  Items of an array that are equal by structure are dropped in the same way by
the check, by a conversion to a set, and by a set that accepts the array. -/
theorem unique_keeps_first (same : Option (Value → Value → Bool)) {v : Value} {items : List Value}
    (hv : v.asItems? = some items) :
    (∃ chosen, ChoosesFirst (same.getD (· == ·)) items chosen ∧
      let kept := selected chosen items
      let dropped := selected (fun j => !chosen j) items
      (∀ message, leftBy [⟨.unique same true, message⟩] v = some (withItems v kept)) ∧
      (kept.Pairwise fun a b => same.getD (· == ·) a b = false) ∧
      (unique same true).evaluate (withItems v kept) = .pass ∧
      (∀ w, (unique same false).evaluate v = .fail w ↔ dropped.head? = some w) ∧
      ((∃ w, (unique same false).evaluate v = .fail w) ↔ kept ≠ items)) ∧
    (∀ given message,
      leftBy [⟨.unique none true, message⟩] (.array given) = some (.array (Value.distinct given)) ∧
      Settings.arrayOutput { casts := true } (.array given) = .set (Value.distinct given) ∧
      Settings.setInput { coerces := true } (.array given) = .set (Value.distinct given)) ∧
    ∀ element, (Schema.distinctArray element).Makes fun a =>
      (Schema.arrayToSet element).Makes fun b => (Schema.setOfArray element).Makes fun c =>
        ∀ mode options,
          (∀ u ws, options.Truthful a mode u → options.Truthful b mode u →
            ((a.safeParse mode options u).result = .ok (.success (.array ws)) ↔
              (b.safeParse mode options u).result = .ok (.success (.set ws)))) ∧
          ∀ f given,
            (∀ w ∈ given, (element.parseFresh ⟨options, mode⟩ w).1 = .ok (.success (f w))) →
            (∀ u ∈ given, ∀ w ∈ given, (u == w) = true → (f u == f w) = true) →
            options.Truthful a mode (.array given) → options.Truthful c mode (.array given) →
              (a.safeParse mode options (.array given)).result =
                  .ok (.success (.array (Value.distinct (given.map f)))) ∧
                (c.safeParse mode options (.array given)).result =
                  .ok (.success (.set (Value.distinct (given.map f)))) := by
  refine ⟨?_, fun given message => ⟨leftBy_unique rfl none message, rfl, rfl⟩, ?_⟩
  · obtain ⟨chosen, hchosen⟩ := Value.exists_choosesFirst (same.getD (· == ·)) items
    have hkept := hchosen.keepFirst_eq
    have hpairwise : (selected chosen items).Pairwise fun a b => same.getD (· == ·) a b = false :=
      hkept ▸ Value.keepFirst_pairwise _ items
    have hfirst (w : Value) : (unique same false).evaluate v = .fail w ↔
        (selected (fun j => !chosen j) items).head? = some w := by
      rw [evaluate_unique_fail_iff hv, firstRepeat?_eq hchosen]
    refine ⟨chosen, hchosen, fun message => ?_, hpairwise, ?_, hfirst, ?_⟩
    · rw [leftBy_unique hv, hkept]
    · exact evaluate_unique_converting_pass (asItems?_withItems hv _) same hpairwise
    · simp only [hfirst, ← Option.isSome_iff_exists, List.isSome_head?, ne_eq,
        ← Value.selected_not_eq_nil_iff]
  · intro element n m k mode options
    refine ⟨fun u ws ha hb => ?_, fun f given hgiven hf ha hc => ?_⟩
    · rw [Schema.safeParse_of_truthful ha, Schema.safeParse_of_truthful hb]
      exact Schema.distinctArray_iff_arrayToSet element n m _ _ _ _ _
    · have hboth :=
        Schema.distinctArray_and_setOfArray element n k ⟨options, mode⟩ f given hgiven hf
      rwa [Schema.parseFresh_fst, Schema.parseFresh_fst, ← Schema.safeParse_of_truthful ha,
        ← Schema.safeParse_of_truthful hc] at hboth

/-- Whether a value comes before another one. -/
def precedes (a b : Value) : Bool := a.order b == .lt

/-- A schema for every value. -/
def anything : Schema := ⟨0, .leaf .any, {}, {}⟩

/-- Of two, one and three, a check that identifies a value with those it precedes drops the last.
Both values that are no numbers stay among distinct ones. -/
theorem unique_precedes_drops_three :
    leftBy [⟨.unique (some precedes) true, none⟩] (.array [.ofNat 2, .ofNat 1, .ofNat 3]) =
        some (.array [.ofNat 2, .ofNat 1]) ∧
      (unique (some precedes) false).evaluate (.array [.ofNat 2, .ofNat 1, .ofNat 3]) =
        .fail (.ofNat 3) ∧
      let nan := Value.number (.nan false)
      (Schema.distinctArray anything).Makes fun a =>
        (Schema.setOfArray anything).Makes fun c =>
          (a.safeParse .immediate {} (.array [nan, .null, nan, .null])).result =
              .ok (.success (.array [nan, .null, nan])) ∧
            (c.safeParse .immediate {} (.array [nan, .null, nan, .null])).result =
              .ok (.success (.set [nan, .null, nan])) := by
  have hitems : (Value.array [.ofNat 2, .ofNat 1, .ofNat 3]).asItems? =
    some [.ofNat 2, .ofNat 1, .ofNat 3] := rfl
  obtain ⟨⟨chosen, hchosen, hleft, -, -, hfail, -⟩, -, hways⟩ :=
    unique_keeps_first (some precedes) hitems
  have hfirst : chosen 0 = true := (hchosen 0 _ rfl).mpr nofun
  have hsecond : chosen 1 = true := by
    refine (hchosen 1 _ rfl).mpr fun k u hk _ hu => ?_
    obtain rfl : k = 0 := by omega
    obtain rfl := Option.some.inj hu
    decide +kernel
  have hthird : chosen 2 = false := by
    refine Bool.eq_false_iff.mpr fun h => ?_
    have hnew := (hchosen 2 _ rfl).mp h 0 _ (by decide) hfirst rfl
    revert hnew
    decide +kernel
  refine ⟨?_, ?_, fun n m => ?_⟩
  · rw [hleft]
    simp [selected, withItems, hfirst, hsecond, hthird]
  · rw [hfail]
    simp [selected, hfirst, hsecond, hthird]
  · have haccepts (w : Value) : (anything.parseFresh ⟨{}, .immediate⟩ w).1 = .ok (.success w) := by
      cases w <;> rfl
    exact (hways anything n 0 m .immediate {}).2 id
      [.number (.nan false), .null, .number (.nan false), .null]
      (fun w _ => haccepts w) (fun _ _ _ _ h => h) nofun nofun

end Check

end ValueSchema

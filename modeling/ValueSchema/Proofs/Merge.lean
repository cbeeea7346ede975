import ValueSchema.Proofs.Alike

/-!
# Laws of merging

Merging two values is a partial operation.  On values without a repeated key it is commutative
and associative up to the order of keys and the sign of zero (`Value.merge?_comm`,
`Value.merge?_assoc`): one side is no value just when the other is none, and otherwise the two
values are alike.  A value merges with itself just when every number in it is one, and then to
itself (`Value.merge?_self_iff`).

The laws are proved by induction on a value.  Arrays are merged item by item.  What stands under
a key of two merged objects depends only on what stands there in each of them
(`Value.joinAt?`, `Value.merge?_object`), so that a law of objects follows from the same law
under each key.
-/

namespace ValueSchema

/-! ## Related options -/

section Related

variable {α β : Type} {R : α → α → Prop} {S : β → β → Prop}

theorem rel_refl (h : ∀ a, R a a) (x : Option α) : Option.Rel R x x := by
  cases x with
  | none => exact .none
  | some a => exact .some (h a)

theorem rel_symm (h : ∀ a b, R a b → R b a) {x y : Option α} (hxy : Option.Rel R x y) :
    Option.Rel R y x := by
  cases hxy with
  | none => exact .none
  | some hab => exact .some (h _ _ hab)

theorem rel_trans (h : ∀ a b c, R a b → R b c → R a c) {x y z : Option α}
    (hxy : Option.Rel R x y) (hyz : Option.Rel R y z) : Option.Rel R x z := by
  cases hxy with
  | none => exact hyz
  | some hab =>
      cases hyz with
      | some hbc => exact .some (h _ _ _ hab hbc)

theorem rel_bind {x y : Option α} {f g : α → Option β} (h : Option.Rel R x y)
    (hfg : ∀ a b, x = some a → y = some b → R a b → Option.Rel S (f a) (g b)) :
    Option.Rel S (x.bind f) (y.bind g) := by
  cases h with
  | none => exact .none
  | some hab => exact hfg _ _ rfl rfl hab

theorem rel_map {x y : Option α} {f g : α → β} (h : Option.Rel R x y)
    (hfg : ∀ a b, R a b → S (f a) (g b)) : Option.Rel S (x.map f) (y.map g) := by
  cases h with
  | none => exact .none
  | some hab => exact .some (hfg _ _ hab)

end Related

namespace Value

variable {a b c m : Value}

/-! ## Merging as a whole -/

/-- A value that is merged as a whole. -/
def IsWhole (v : Value) : Prop := v.kind ≠ .array ∧ v.kind ≠ .object

/-- A value is merged by its parts or as a whole. -/
theorem parts_or_whole (v : Value) :
    (∃ items, v = .array items) ∨ (∃ entries, v = .object entries) ∨ v.IsWhole := by
  cases v with
  | array items => exact .inl ⟨items, rfl⟩
  | object entries => exact .inr (.inl ⟨entries, rfl⟩)
  | number x => exact .inr (.inr (by simp only [IsWhole, kind]; split <;> simp))
  | _ => exact .inr (.inr (by simp [IsWhole, kind]))

theorem exists_array (h : a.kind = .array) : ∃ items, a = .array items := by
  rcases parts_or_whole a with ha | ⟨entries, rfl⟩ | ha
  · exact ha
  · cases h
  · exact absurd h ha.1

theorem exists_object (h : a.kind = .object) : ∃ entries, a = .object entries := by
  rcases parts_or_whole a with ⟨items, rfl⟩ | ha | ha
  · cases h
  · exact ha
  · exact absurd h ha.2

theorem merge?_of_equal (h : equal a b = true) : merge? a b = some a := by
  unfold merge?
  exact if_pos h

theorem merge?_whole (ha : a.IsWhole) : merge? a b = if equal a b = true then some a else none := by
  unfold merge?
  show (if equal a b = true then _ else _) = _
  congr 1
  cases a with
  | array items => exact absurd rfl ha.1
  | object entries => exact absurd rfl ha.2
  | _ => rfl

theorem merge?_whole_right (hb : b.IsWhole) :
    merge? a b = if equal a b = true then some a else none := by
  unfold merge?
  show (if equal a b = true then _ else _) = _
  congr 1
  cases b with
  | array items => exact absurd rfl hb.1
  | object entries => exact absurd rfl hb.2
  | _ => cases a <;> rfl

theorem kind_of_equal (h : equal a b = true) : b.kind = a.kind := by
  cases a with
  | number x =>
      cases b with
      | number y =>
          obtain ⟨-, rfl | ⟨hx, hy⟩⟩ := equal_number_iff.mp h
          · rfl
          · simp [kind, Alike.isNaN_of_isZero hx, Alike.isNaN_of_isZero hy]
      | _ => cases h
  | _ => cases b <;> first | rfl | cases h

/-! ## Arrays -/

theorem mergeItems?_cons (l r : Value) (ls rs : List Value) :
    mergeItems? (l :: ls) (r :: rs) = (merge? l r).bind fun m => (mergeItems? ls rs).map (m :: ·) := by
  rw [mergeItems?]
  cases merge? l r <;> cases mergeItems? ls rs <;> rfl

theorem mergeItems?_of_equal :
    ∀ {ls rs : List Value}, equalItems ls rs = true → mergeItems? ls rs = some ls
  | [], [], _ => rfl
  | l :: ls, r :: rs, h => by
      obtain ⟨hhead, htail⟩ := Bool.and_eq_true_iff.mp h
      rw [mergeItems?_cons, merge?_of_equal hhead, mergeItems?_of_equal htail]
      rfl

theorem merge?_array (ls rs : List Value) :
    merge? (.array ls) (.array rs) = (mergeItems? ls rs).map .array := by
  by_cases h : equal (.array ls) (.array rs) = true
  · rw [merge?_of_equal h, mergeItems?_of_equal h]
    rfl
  · unfold merge?
    exact if_neg h

/-! ## Objects -/

/-- What stands under a key of two merged objects, given what stands there in each. -/
def joinAt? : Option Value → Option Value → Option (Option Value)
  | some l, some r => (merge? l r).map some
  | some l, none => some (some l)
  | none, r => some r

theorem joinAt?_none_left (x : Option Value) : joinAt? none x = some x := rfl

theorem joinAt?_none_right (x : Option Value) : joinAt? x none = some x := by
  cases x <;> rfl

/-- What a merge of objects is, given what each key gets: it has distinct keys, and what is said
under each of them.  There is none when nothing fits under some key. -/
def IsJoin (f : String → Option (Option Value)) : Option (Entries Value) → Prop
  | some m => m.keys.Nodup ∧ ∀ k, f k = some (m.get? k)
  | none => ∃ k, f k = none

theorem get?_cons {k j : String} {v : Value} {l : List (String × Value)} :
    Entries.get? ⟨(k, v) :: l⟩ j = if k = j then some v else Entries.get? ⟨l⟩ j := by
  show List.lookup j ((k, v) :: l) = _
  rw [List.lookup_cons]
  by_cases hj : k = j
  · simp [hj]
  · have hb : (j == k) = false := by simp [Ne.symm hj]
    simp [hb, hj, Entries.get?]

/-- A key merges with what stands under it, and all other keys are merged after that. -/
theorem joinAt?_insert {ls : Entries Value} {k : String} {r m : Value} {rs : List (String × Value)}
    (hk : k ∉ rs.map Prod.fst) (hm : joinAt? (ls.get? k) (some r) = some (some m)) (j : String) :
    joinAt? ((ls.insert k m).get? j) (Entries.get? ⟨rs⟩ j) =
      joinAt? (ls.get? j) (Entries.get? ⟨(k, r) :: rs⟩ j) := by
  rw [Entries.get?_insert, get?_cons]
  by_cases hj : k = j
  · subst hj
    have hnone : Entries.get? ⟨rs⟩ k = none := (Entries.get?_eq_none_iff ⟨rs⟩ k).mpr hk
    rw [if_pos rfl, if_pos rfl, hnone, hm, joinAt?_none_right]
  · rw [if_neg hj, if_neg hj]

theorem mergeEntries?_isJoin :
    ∀ {rs : List (String × Value)} {ls : Entries Value}, (rs.map Prod.fst).Nodup →
      ls.keys.Nodup →
      IsJoin (fun k => joinAt? (ls.get? k) (Entries.get? ⟨rs⟩ k)) (mergeEntries? ls rs)
  | [], ls, _, hl => ⟨hl, fun k => joinAt?_none_right _⟩
  | (k, r) :: rs, ls, hr, hl => by
      obtain ⟨hk, hr⟩ := List.nodup_cons.mp hr
      have hhead : Entries.get? ⟨(k, r) :: rs⟩ k = some r := by rw [get?_cons, if_pos rfl]
      have hinsert (m : Value) (hm : joinAt? (ls.get? k) (some r) = some (some m)) :
          IsJoin (fun j => joinAt? (ls.get? j) (Entries.get? ⟨(k, r) :: rs⟩ j))
            (mergeEntries? (ls.insert k m) rs) := by
        have ih := mergeEntries?_isJoin hr (Entries.nodup_insert hl k m)
        simpa only [joinAt?_insert hk hm] using ih
      rw [mergeEntries?]
      cases hget : ls.get? k with
      | none => exact hinsert r (by rw [hget]; rfl)
      | some l =>
          dsimp only
          cases hm : merge? l r with
          | none => exact ⟨k, by simp [hget, hhead, joinAt?, hm]⟩
          | some m => exact hinsert m (by simp [hget, joinAt?, hm])

/-- Two objects are merged key by key, in whatever order the keys stand. -/
theorem merge?_object {ls rs : Entries Value} (hl : ls.keys.Nodup) (hr : rs.keys.Nodup) :
    ∃ o, merge? (.object ls) (.object rs) = o.map .object ∧
      IsJoin (fun k => joinAt? (ls.get? k) (rs.get? k)) o := by
  by_cases h : equal (.object ls) (.object rs) = true
  · refine ⟨some ls, merge?_of_equal h, hl, fun k => ?_⟩
    obtain ⟨hkeys, hall⟩ := (equal_object_iff hl).mp h
    dsimp only
    cases hk : ls.get? k with
    | none => rw [(Rearranged.get?_eq_none_iff hkeys k).mp hk, joinAt?]
    | some l =>
        obtain ⟨r, hkr, hlr⟩ := hall k l hk
        rw [hkr, joinAt?, merge?_of_equal hlr]
        rfl
  · refine ⟨mergeEntries? ls rs.toList, ?_, mergeEntries?_isJoin hr hl⟩
    unfold merge?
    exact if_neg h

/-- A law of merged objects follows from the same law under each key. -/
theorem IsJoin.rel {o o' : Option (Entries Value)} {f f' : String → Option (Option Value)}
    (h : IsJoin f o) (h' : IsJoin f' o')
    (hf : ∀ k, Option.Rel (Option.Rel Alike) (f k) (f' k)) :
    Option.Rel Alike (o.map Value.object) (o'.map Value.object) := by
  cases o with
  | none =>
      cases o' with
      | none => exact .none
      | some m' =>
          obtain ⟨k, hk⟩ := h
          have hrel := hf k
          rw [hk, h'.2 k] at hrel
          cases hrel
  | some m =>
      cases o' with
      | none =>
          obtain ⟨k, hk⟩ := h'
          have hrel := hf k
          rw [hk, h.2 k] at hrel
          cases hrel
      | some m' =>
          refine .some (.object_of_get? h.1 h'.1 fun k => ?_)
          have hrel := hf k
          rw [h.2 k, h'.2 k] at hrel
          cases hrel with
          | some hk => exact hk

/-! ## Kinds and keys of merged values -/

theorem kind_of_merge? (h : merge? a b = some m) : b.kind = a.kind ∧ m.kind = a.kind := by
  by_cases heq : equal a b = true
  · obtain rfl := Option.some.inj ((merge?_of_equal heq).symm.trans h)
    exact ⟨kind_of_equal heq, rfl⟩
  · unfold merge? at h
    replace h := (if_neg heq).symm.trans h
    cases a with
    | array as =>
        cases b with
        | array bs =>
            obtain ⟨ms, -, rfl⟩ := Option.map_eq_some_iff.mp h
            exact ⟨rfl, rfl⟩
        | _ => cases h
    | object as =>
        cases b with
        | object bs =>
            obtain ⟨ms, -, rfl⟩ := Option.map_eq_some_iff.mp h
            exact ⟨rfl, rfl⟩
        | _ => cases h
    | _ => cases b <;> cases h

theorem merge?_eq_none_of_kind (h : b.kind ≠ a.kind) : merge? a b = none := by
  cases hm : merge? a b with
  | none => rfl
  | some m => exact absurd (kind_of_merge? hm).1 h

theorem mergeItems?_mem {P : Value → Prop} :
    ∀ {as bs ms : List Value}, (∀ a ∈ as, ∀ b ∈ bs, ∀ m, merge? a b = some m → P m) →
      mergeItems? as bs = some ms → ∀ m ∈ ms, P m
  | [], [], ms, _, h => by
      obtain rfl := Option.some.inj h
      exact nofun
  | a :: as, b :: bs, ms, hP, h => by
      rw [mergeItems?_cons] at h
      obtain ⟨m, hm, h⟩ := Option.bind_eq_some_iff.mp h
      obtain ⟨ms, hms, rfl⟩ := Option.map_eq_some_iff.mp h
      refine List.forall_mem_cons.mpr ⟨hP a (List.mem_cons_self ..) b (List.mem_cons_self ..) m hm, ?_⟩
      refine mergeItems?_mem (fun a ha b hb => ?_) hms
      exact hP a (List.mem_cons_of_mem _ ha) b (List.mem_cons_of_mem _ hb)

theorem joinAt?_some {P : Value → Prop} {x y z : Option Value} (hx : ∀ a, x = some a → P a)
    (hy : ∀ b, y = some b → P b)
    (hm : ∀ a b m, x = some a → y = some b → merge? a b = some m → P m)
    (h : joinAt? x y = some z) : ∀ m, z = some m → P m := by
  cases x with
  | none =>
      obtain rfl := Option.some.inj h
      exact hy
  | some a =>
      cases y with
      | none =>
          obtain rfl := Option.some.inj h
          exact hx
      | some b =>
          obtain ⟨m, hmerge, rfl⟩ := Option.map_eq_some_iff.mp h
          rintro _ ⟨⟩
          exact hm a b m rfl rfl hmerge

/-- Merging repeats no key. -/
theorem distinctKeys_of_merge? (ha : a.DistinctKeys) :
    ∀ {b m}, b.DistinctKeys → merge? a b = some m → m.DistinctKeys := by
  induction ha with
  | @intro a hown hin ih =>
      intro b m hb h
      have ha : a.DistinctKeys := .intro hown hin
      obtain ⟨hkind, -⟩ := kind_of_merge? h
      rcases parts_or_whole a with ⟨as, rfl⟩ | ⟨as, rfl⟩ | hwhole
      · obtain ⟨bs, rfl⟩ := exists_array hkind
        rw [merge?_array] at h
        obtain ⟨ms, hms, rfl⟩ := Option.map_eq_some_iff.mp h
        refine .array (mergeItems?_mem (fun a ha b hmem m hm => ?_) hms)
        exact ih a (.inl ha) (hb.of_mem_array hmem) hm
      · obtain ⟨bs, rfl⟩ := exists_object hkind
        obtain ⟨o, ho, hjoin⟩ := merge?_object ha.nodup hb.nodup
        rw [ho] at h
        obtain ⟨ms, rfl, rfl⟩ := Option.map_eq_some_iff.mp h
        refine .object hjoin.1 fun k m hk => ?_
        exact joinAt?_some (P := DistinctKeys) (fun a hka => hin a (.inr ⟨k, hka⟩))
          (fun b hkb => hb.of_get? hkb)
          (fun a b m hka hkb hm => ih a (.inr ⟨k, hka⟩) (hb.of_get? hkb) hm) (hjoin.2 k) m hk
      · rw [merge?_whole hwhole] at h
        split at h
        · exact Option.some.inj h ▸ ha
        · cases h

/-! ## Commutativity -/

/-- Related merges of heads and of tails are related merges of lists. -/
theorem rel_cons {x y : Option Value} {xs ys : Option (List Value)} (h : Option.Rel Alike x y)
    (hs : Option.Rel (List.Forall₂ Alike) xs ys) :
    Option.Rel (List.Forall₂ Alike) (x.bind fun m => xs.map (m :: ·))
      (y.bind fun m => ys.map (m :: ·)) :=
  rel_bind h fun _ _ _ _ hab => rel_map hs fun _ _ habs => List.Forall₂.cons hab habs

theorem mergeItems?_comm :
    ∀ {as bs : List Value},
      (∀ a ∈ as, ∀ b ∈ bs, Option.Rel Alike (merge? a b) (merge? b a)) →
      Option.Rel (List.Forall₂ Alike) (mergeItems? as bs) (mergeItems? bs as)
  | [], [], _ => .some .nil
  | [], _ :: _, _ => .none
  | _ :: _, [], _ => .none
  | a :: as, b :: bs, h => by
      rw [mergeItems?_cons, mergeItems?_cons]
      refine rel_cons (h a (List.mem_cons_self ..) b (List.mem_cons_self ..)) ?_
      exact mergeItems?_comm fun a ha b hb =>
        h a (List.mem_cons_of_mem _ ha) b (List.mem_cons_of_mem _ hb)

theorem joinAt?_comm {x y : Option Value}
    (h : ∀ a b, x = some a → y = some b → Option.Rel Alike (merge? a b) (merge? b a)) :
    Option.Rel (Option.Rel Alike) (joinAt? x y) (joinAt? y x) := by
  cases x with
  | none =>
      rw [joinAt?_none_right]
      exact .some (rel_refl .refl y)
  | some a =>
      cases y with
      | none => exact .some (.some (.refl a))
      | some b => exact rel_map (h a b rfl rfl) fun _ _ hm => .some hm

theorem merge?_comm (ha : a.DistinctKeys) :
    ∀ {b}, b.DistinctKeys → Option.Rel Alike (merge? a b) (merge? b a) := by
  induction ha with
  | @intro a hown hin ih =>
      intro b hb
      have ha : a.DistinctKeys := .intro hown hin
      by_cases hkind : b.kind = a.kind
      case neg =>
        rw [merge?_eq_none_of_kind hkind, merge?_eq_none_of_kind (Ne.symm hkind)]
        exact .none
      rcases parts_or_whole a with ⟨as, rfl⟩ | ⟨as, rfl⟩ | hwhole
      · obtain ⟨bs, rfl⟩ := exists_array hkind
        rw [merge?_array, merge?_array]
        refine rel_map (mergeItems?_comm fun a ha b hmem => ?_) fun _ _ => .array_of_forall₂
        exact ih a (.inl ha) (hb.of_mem_array hmem)
      · obtain ⟨bs, rfl⟩ := exists_object hkind
        obtain ⟨o, ho, hjoin⟩ := merge?_object ha.nodup hb.nodup
        obtain ⟨o', ho', hjoin'⟩ := merge?_object hb.nodup ha.nodup
        rw [ho, ho']
        refine hjoin.rel hjoin' fun k => joinAt?_comm fun a b hka hkb => ?_
        exact ih a (.inr ⟨k, hka⟩) (hb.of_get? hkb)
      · rw [merge?_whole hwhole, merge?_whole_right hwhole, equal_comm hb ha]
        split
        next heq => exact .some (alike_of_equal ha heq).1
        next => exact .none

/-! ## Associativity -/

theorem mergeItems?_bind_cons (a b c : Value) (as bs cs : List Value) :
    (mergeItems? (a :: as) (b :: bs)).bind (mergeItems? · (c :: cs)) =
      ((merge? a b).bind (merge? · c)).bind fun m =>
        ((mergeItems? as bs).bind (mergeItems? · cs)).map (m :: ·) := by
  rw [mergeItems?_cons]
  cases merge? a b with
  | none => rfl
  | some x =>
      cases mergeItems? as bs with
      | none => cases hx : merge? x c <;> simp [hx]
      | some xs => exact mergeItems?_cons x c xs cs

theorem mergeItems?_cons_bind (a b c : Value) (as bs cs : List Value) :
    (mergeItems? (b :: bs) (c :: cs)).bind (mergeItems? (a :: as) ·) =
      ((merge? b c).bind (merge? a ·)).bind fun m =>
        ((mergeItems? bs cs).bind (mergeItems? as ·)).map (m :: ·) := by
  rw [mergeItems?_cons]
  cases merge? b c with
  | none => rfl
  | some x =>
      cases mergeItems? bs cs with
      | none => cases hx : merge? a x <;> simp [hx]
      | some xs => exact mergeItems?_cons a x as xs

theorem mergeItems?_assoc :
    ∀ {as bs cs : List Value},
      (∀ a ∈ as, ∀ b ∈ bs, ∀ c ∈ cs,
        Option.Rel Alike ((merge? a b).bind (merge? · c)) ((merge? b c).bind (merge? a ·))) →
      Option.Rel (List.Forall₂ Alike) ((mergeItems? as bs).bind (mergeItems? · cs))
        ((mergeItems? bs cs).bind (mergeItems? as ·))
  | [], [], [], _ => .some .nil
  | a :: as, b :: bs, c :: cs, h => by
      rw [mergeItems?_bind_cons, mergeItems?_cons_bind]
      have hhead := h a (List.mem_cons_self ..) b (List.mem_cons_self ..) c (List.mem_cons_self ..)
      refine rel_cons hhead (mergeItems?_assoc fun a ha b hb c hc => ?_)
      exact h a (List.mem_cons_of_mem _ ha) b (List.mem_cons_of_mem _ hb) c
        (List.mem_cons_of_mem _ hc)
  | [], [], _ :: _, _ => .none
  | [], _ :: _, [], _ => .none
  | [], b :: bs, c :: cs, _ => by
      rw [mergeItems?_cons]
      cases merge? b c with
      | none => exact .none
      | some m => cases mergeItems? bs cs <;> exact .none
  | a :: as, [], [], _ => .none
  | a :: as, [], c :: cs, _ => .none
  | a :: as, b :: bs, [], _ => by
      rw [mergeItems?_cons]
      cases merge? a b with
      | none => exact .none
      | some m => cases mergeItems? as bs <;> exact .none

theorem joinAt?_assoc {x y z : Option Value}
    (h : ∀ a b c, x = some a → y = some b → z = some c →
      Option.Rel Alike ((merge? a b).bind (merge? · c)) ((merge? b c).bind (merge? a ·))) :
    Option.Rel (Option.Rel Alike) ((joinAt? x y).bind (joinAt? · z))
      ((joinAt? y z).bind (joinAt? x ·)) := by
  have hrefl := rel_refl (rel_refl Alike.refl)
  cases x with
  | none => simpa [joinAt?_none_left] using hrefl (joinAt? y z)
  | some a =>
      cases y with
      | none => exact hrefl _
      | some b =>
          cases z with
          | none => simpa [joinAt?_none_right] using hrefl (joinAt? (some a) (some b))
          | some c =>
              have hmap := rel_map (h a b c rfl rfl rfl) (fun _ _ hm => Option.Rel.some hm)
              simpa [joinAt?, Option.map_bind, Option.bind_map, Function.comp_def] using hmap

/-- Merges of three values of several kinds have no value, in whatever order. -/
theorem bind_merge?_eq_none (h : ¬ (b.kind = a.kind ∧ c.kind = a.kind)) :
    (merge? a b).bind (merge? · c) = none ∧ (merge? b c).bind (merge? a ·) = none := by
  constructor
  · refine Option.eq_none_iff_forall_ne_some.mpr fun m hm => h ?_
    obtain ⟨x, hab, hxc⟩ := Option.bind_eq_some_iff.mp hm
    obtain ⟨hb, hx⟩ := kind_of_merge? hab
    exact ⟨hb, (kind_of_merge? hxc).1.trans hx⟩
  · refine Option.eq_none_iff_forall_ne_some.mpr fun m hm => h ?_
    obtain ⟨x, hbc, hax⟩ := Option.bind_eq_some_iff.mp hm
    obtain ⟨hc, hx⟩ := kind_of_merge? hbc
    have hb := hx.symm.trans (kind_of_merge? hax).1
    exact ⟨hb, hc.trans hb⟩

/-- Objects are merged one after another key by key. -/
theorem bind_merge?_object {ls : Entries Value} {o : Option (Entries Value)}
    {f : String → Option (Option Value)} (h : IsJoin f o) (hl : ls.keys.Nodup) :
    (∃ o', (o.map Value.object).bind (merge? · (.object ls)) = o'.map .object ∧
      IsJoin (fun k => (f k).bind (joinAt? · (ls.get? k))) o') ∧
    ∃ o', (o.map Value.object).bind (merge? (.object ls) ·) = o'.map .object ∧
      IsJoin (fun k => (f k).bind (joinAt? (ls.get? k) ·)) o' := by
  cases o with
  | none =>
      obtain ⟨k, hk⟩ := h
      exact ⟨⟨none, rfl, k, by simp [hk]⟩, none, rfl, k, by simp [hk]⟩
  | some m =>
      obtain ⟨hm, hget⟩ := h
      simp only [hget]
      exact ⟨merge?_object hm hl, merge?_object hl hm⟩

theorem merge?_assoc (ha : a.DistinctKeys) :
    ∀ {b c}, b.DistinctKeys → c.DistinctKeys →
      Option.Rel Alike ((merge? a b).bind (merge? · c)) ((merge? b c).bind (merge? a ·)) := by
  induction ha with
  | @intro a hown hin ih =>
      intro b c hb hc
      have ha : a.DistinctKeys := .intro hown hin
      by_cases hkind : b.kind = a.kind ∧ c.kind = a.kind
      case neg =>
        rw [(bind_merge?_eq_none hkind).1, (bind_merge?_eq_none hkind).2]
        exact .none
      obtain ⟨hkb, hkc⟩ := hkind
      rcases parts_or_whole a with ⟨as, rfl⟩ | ⟨as, rfl⟩ | hwhole
      · obtain ⟨bs, rfl⟩ := exists_array hkb
        obtain ⟨cs, rfl⟩ := exists_array hkc
        have hitems : Option.Rel (List.Forall₂ Alike) ((mergeItems? as bs).bind (mergeItems? · cs))
            ((mergeItems? bs cs).bind (mergeItems? as ·)) :=
          mergeItems?_assoc fun a ha b hmb c hmc =>
            ih a (.inl ha) (hb.of_mem_array hmb) (hc.of_mem_array hmc)
        have hmap := rel_map hitems fun _ _ => Alike.array_of_forall₂
        simpa [merge?_array, Option.map_bind, Option.bind_map, Function.comp_def] using hmap
      · obtain ⟨bs, rfl⟩ := exists_object hkb
        obtain ⟨cs, rfl⟩ := exists_object hkc
        obtain ⟨o, ho, hjoin⟩ := merge?_object ha.nodup hb.nodup
        obtain ⟨o', ho', hjoin'⟩ := merge?_object hb.nodup hc.nodup
        obtain ⟨⟨p, hp, hleft⟩, -⟩ := bind_merge?_object hjoin hc.nodup
        obtain ⟨-, q, hq, hright⟩ := bind_merge?_object hjoin' ha.nodup
        rw [ho, ho', hp, hq]
        refine hleft.rel hright fun k => joinAt?_assoc fun a b c hka hkb hkc => ?_
        exact ih a (.inr ⟨k, hka⟩) (hb.of_get? hkb) (hc.of_get? hkc)
      · have hwb : b.IsWhole := by
          rw [IsWhole, hkb]
          exact hwhole
        -- A value that is merged as a whole stays as it is, so only equality matters.
        simp only [merge?_whole hwhole, merge?_whole hwb]
        cases hab : equal a b with
        | false => cases equal b c <;> simp [hab]
        | true =>
            have hac : equal a c = equal b c := (alike_of_equal ha hab).1.equal_congr ha hb
            cases hbc : equal b c with
            | false => simp [merge?_whole hwhole, hac, hbc]
            | true => simpa [merge?_whole hwhole, hac, hbc, hab] using rel_refl Alike.refl (some a)

/-! ## Alike operands -/

theorem mergeItems?_congr :
    ∀ {as as' bs : List Value}, List.Forall₂ Alike as as' →
      (∀ (i : Nat) (a a' b : Value), as[i]? = some a → as'[i]? = some a' → b ∈ bs →
        Option.Rel Alike (merge? a b) (merge? a' b)) →
      Option.Rel (List.Forall₂ Alike) (mergeItems? as bs) (mergeItems? as' bs)
  | _, _, [], .nil, _ => .some .nil
  | _, _, _ :: _, .nil, _ => .none
  | _, _, [], .cons _ _, _ => .none
  | _, _, b :: bs, .cons _ hs, h => by
      rw [mergeItems?_cons, mergeItems?_cons]
      refine rel_cons (h 0 _ _ b rfl rfl (List.mem_cons_self ..)) (mergeItems?_congr hs ?_)
      exact fun i a a' b ha ha' hb => h (i + 1) a a' b ha ha' (List.mem_cons_of_mem _ hb)

theorem joinAt?_congr {x x' y : Option Value} (hx : Option.Rel Alike x x')
    (h : ∀ a a' b, Alike a a' → x = some a → x' = some a' → y = some b →
      Option.Rel Alike (merge? a b) (merge? a' b)) :
    Option.Rel (Option.Rel Alike) (joinAt? x y) (joinAt? x' y) := by
  cases hx with
  | none => exact rel_refl (rel_refl Alike.refl) _
  | some hab =>
      cases y with
      | none => exact .some (.some hab)
      | some b => exact rel_map (h _ _ b hab rfl rfl rfl) fun _ _ hm => .some hm

/-- What stands under a key of two alike objects is alike. -/
theorem Alike.rel_get? {as bs : Entries Value} (hp : as.keys.Perm bs.keys)
    (h : ∀ k a b, as.get? k = some a → bs.get? k = some b → Alike a b) (k : String) :
    Option.Rel Alike (as.get? k) (bs.get? k) := by
  cases ha : as.get? k with
  | none =>
      rw [(Rearranged.get?_eq_none_iff hp k).mp ha]
      exact .none
  | some a =>
      obtain ⟨b, hb⟩ := Rearranged.exists_get? hp ha
      rw [hb]
      exact .some (h k a b ha hb)

/-- Merging does not see which of two alike values stands on its left side. -/
theorem merge?_congr_left {a a' : Value} (h : Alike a a') :
    ∀ {b}, a.DistinctKeys → a'.DistinctKeys → b.DistinctKeys →
      Option.Rel Alike (merge? a b) (merge? a' b) := by
  have hwhole {a a' b : Value} (ha : a.IsWhole) (ha' : a'.IsWhole) (h : Alike a a')
      (hd : a.DistinctKeys) (hd' : a'.DistinctKeys) :
      Option.Rel Alike (merge? a b) (merge? a' b) := by
    rw [merge?_whole ha, merge?_whole ha', h.equal_congr hd hd']
    split
    · exact .some h
    · exact .none
  induction h with
  | refl v => exact fun _ _ _ => rel_refl Alike.refl _
  | @zero x y hx hy =>
      intro b ha ha' _
      have hnumber {z : Double} : (number z).IsWhole := by
        simp only [IsWhole, kind]
        split <;> simp
      exact hwhole hnumber hnumber (.zero hx hy) ha ha'
  | @set as as' hl hall _ =>
      intro b ha ha' _
      exact hwhole (by simp [IsWhole, kind]) (by simp [IsWhole, kind]) (.set hl hall) ha ha'
  | @array as as' hl hall ih =>
      intro b ha ha' hb
      by_cases hkind : b.kind = .array
      case neg =>
        rw [merge?_eq_none_of_kind (a := .array as) hkind, merge?_eq_none_of_kind (a := .array as') hkind]
        exact .none
      obtain ⟨bs, rfl⟩ := exists_array hkind
      rw [merge?_array, merge?_array]
      refine rel_map (mergeItems?_congr (Rearranged.forall₂_items hl hall) ?_) fun _ _ =>
        Alike.array_of_forall₂
      intro i a a' b hia hia' hmem
      exact ih i a a' hia hia' (ha.of_mem_array (List.mem_of_getElem? hia))
        (ha'.of_mem_array (List.mem_of_getElem? hia')) (hb.of_mem_array hmem)
  | @object as as' _ hp hall ih =>
      intro b ha ha' hb
      by_cases hkind : b.kind = .object
      case neg =>
        rw [merge?_eq_none_of_kind (a := .object as) hkind, merge?_eq_none_of_kind (a := .object as') hkind]
        exact .none
      obtain ⟨bs, rfl⟩ := exists_object hkind
      obtain ⟨o, ho, hjoin⟩ := merge?_object ha.nodup hb.nodup
      obtain ⟨o', ho', hjoin'⟩ := merge?_object ha'.nodup hb.nodup
      rw [ho, ho']
      refine hjoin.rel hjoin' fun k => joinAt?_congr (Alike.rel_get? hp hall k) ?_
      intro a a' b _ hka hka' hkb
      exact ih k a a' hka hka' (ha.of_get? hka) (ha'.of_get? hka') (hb.of_get? hkb)

/-! ## A value and itself -/

theorem mergeItems?_self :
    ∀ {as ms : List Value}, mergeItems? as as = some ms → ∀ a ∈ as, ∃ m, merge? a a = some m
  | [], _, _ => nofun
  | a :: as, ms, h => by
      rw [mergeItems?_cons] at h
      obtain ⟨m, hm, h⟩ := Option.bind_eq_some_iff.mp h
      obtain ⟨ms, hms, -⟩ := Option.map_eq_some_iff.mp h
      exact List.forall_mem_cons.mpr ⟨⟨m, hm⟩, mergeItems?_self hms⟩

/-- A value merges with itself only if every number in it is one. -/
theorem isNumeric_of_merge?_self (ha : a.DistinctKeys) :
    ∀ {m}, merge? a a = some m → a.IsNumeric := by
  induction ha with
  | @intro a hown hin ih =>
      intro m h
      have ha : a.DistinctKeys := .intro hown hin
      rcases parts_or_whole a with ⟨as, rfl⟩ | ⟨as, rfl⟩ | hwhole
      · rw [merge?_array] at h
        obtain ⟨ms, hms, -⟩ := Option.map_eq_some_iff.mp h
        refine Throughout.array nofun fun a hmem => ?_
        obtain ⟨m, hm⟩ := mergeItems?_self hms a hmem
        exact ih a (.inl hmem) hm
      · obtain ⟨o, ho, hjoin⟩ := merge?_object ha.nodup ha.nodup
        rw [ho] at h
        obtain ⟨ms, rfl, -⟩ := Option.map_eq_some_iff.mp h
        refine Throughout.object nofun fun k a hk => ?_
        have hjoined : joinAt? (as.get? k) (as.get? k) = some (ms.get? k) := hjoin.2 k
        rw [hk] at hjoined
        obtain ⟨m, hm, -⟩ := Option.map_eq_some_iff.mp hjoined
        exact ih a (.inr ⟨k, hk⟩) hm
      · rw [merge?_whole hwhole] at h
        split at h
        next heq => exact (alike_of_equal ha heq).2
        next => cases h

/-- A value merges with itself just when every number in it is one, and then to itself. -/
theorem merge?_self_iff (ha : a.DistinctKeys) : merge? a a = some m ↔ a.IsNumeric ∧ m = a := by
  constructor
  · intro h
    have hn := isNumeric_of_merge?_self ha h
    exact ⟨hn, Option.some.inj (h.symm.trans (merge?_of_equal (equal_self ha hn)))⟩
  · rintro ⟨hn, rfl⟩
    exact merge?_of_equal (equal_self ha hn)

end Value

end ValueSchema

import ValueSchema.Parse.Choice
import ValueSchema.Proofs.Merge

/-!
# Merging several values

Values are merged from left to right.  What comes out does not depend on their order, up to the
order of keys and the sign of zero (`Schema.mergeAll?_perm`).

The first value is no special case when merging starts with nothing (`Value.mergeFrom?`): then
the laws of `Value.joinAt?` are all that is needed, and a permutation is taken step by step.
-/

namespace ValueSchema

namespace Value

/-! ## Laws of what may be missing -/

/-- A value that may be missing repeats no key. -/
def DistinctKeys? (x : Option Value) : Prop := ∀ a, x = some a → a.DistinctKeys

/-- The same, up to what is alike, of what may be missing. -/
def SameJoin (x y : Option (Option Value)) : Prop := Option.Rel (Option.Rel Alike) x y

theorem SameJoin.refl (x : Option (Option Value)) : SameJoin x x := rel_refl (rel_refl Alike.refl) x

theorem SameJoin.symm {x y : Option (Option Value)} (h : SameJoin x y) : SameJoin y x :=
  rel_symm (fun _ _ h => rel_symm (fun _ _ h => h.symm) h) h

theorem alike_trans (a b c : Value) (h : Alike a b) (h' : Alike b c) : Alike a c := h.trans h'

theorem SameJoin.trans {x y z : Option (Option Value)} (h : SameJoin x y) (h' : SameJoin y z) :
    SameJoin x z :=
  rel_trans (R := Option.Rel Alike) (fun _ _ _ => rel_trans alike_trans) h h'

/-- Values that are there are the same when they are so as what may be missing. -/
theorem SameJoin.of_map_some {x y : Option Value} (h : SameJoin (x.map some) (y.map some)) :
    Option.Rel Alike x y := by
  cases x with
  | none =>
      cases y with
      | none => exact .none
      | some b => cases h
  | some a =>
      cases y with
      | none => cases h
      | some b =>
          cases h with
          | some hrel =>
              cases hrel with
              | some hab => exact .some hab

section Joins

variable {x y z : Option Value}

theorem distinctKeys?_of_joinAt? (hx : DistinctKeys? x) (hy : DistinctKeys? y)
    (h : joinAt? x y = some z) : DistinctKeys? z :=
  joinAt?_some hx hy (fun a b _ ha hb hm => distinctKeys_of_merge? (hx a ha) (hy b hb) hm) h

theorem sameJoin_comm (hx : DistinctKeys? x) (hy : DistinctKeys? y) :
    SameJoin (joinAt? x y) (joinAt? y x) :=
  joinAt?_comm fun a b ha hb => merge?_comm (hx a ha) (hy b hb)

theorem sameJoin_assoc (hx : DistinctKeys? x) (hy : DistinctKeys? y) (hz : DistinctKeys? z) :
    SameJoin ((joinAt? x y).bind (joinAt? · z)) ((joinAt? y z).bind (joinAt? x ·)) :=
  joinAt?_assoc fun a b c ha hb hc => merge?_assoc (hx a ha) (hy b hb) (hz c hc)

theorem sameJoin_left (h : Option.Rel Alike x y) (hx : DistinctKeys? x) (hy : DistinctKeys? y)
    (hz : DistinctKeys? z) : SameJoin (joinAt? x z) (joinAt? y z) :=
  joinAt?_congr h fun a b c hab ha hb hc => merge?_congr_left hab (hx a ha) (hy b hb) (hz c hc)

theorem sameJoin_right (h : Option.Rel Alike x y) (hx : DistinctKeys? x) (hy : DistinctKeys? y)
    (hz : DistinctKeys? z) : SameJoin (joinAt? z x) (joinAt? z y) :=
  (sameJoin_comm hz hx).trans ((sameJoin_left h hx hy hz).trans (sameJoin_comm hy hz))

/-- Two values may be joined to a third in either order. -/
theorem sameJoin_right_comm (hx : DistinctKeys? x) (hy : DistinctKeys? y) (hz : DistinctKeys? z) :
    SameJoin ((joinAt? x y).bind (joinAt? · z)) ((joinAt? x z).bind (joinAt? · y)) := by
  have hswap : SameJoin ((joinAt? y z).bind (joinAt? x ·)) ((joinAt? z y).bind (joinAt? x ·)) := by
    refine rel_bind (sameJoin_comm hy hz) fun m m' hm hm' h => ?_
    exact sameJoin_right h (distinctKeys?_of_joinAt? hy hz hm) (distinctKeys?_of_joinAt? hz hy hm') hx
  exact (sameJoin_assoc hx hy hz).trans (hswap.trans (sameJoin_assoc hx hz hy).symm)

end Joins

/-! ## Lists of values -/

/-- Merging values into what is there already, which is nothing at first. -/
def mergeFrom? (x : Option Value) : List Value → Option (Option Value)
  | [] => some x
  | v :: vs => (joinAt? x (some v)).bind (mergeFrom? · vs)

theorem mergeFrom?_some (a : Value) (vs : List Value) :
    mergeFrom? (some a) vs = (Schema.mergeAll? a vs).map some := by
  induction vs generalizing a with
  | nil => rfl
  | cons v vs ih =>
      rw [mergeFrom?, joinAt?, Schema.mergeAll?]
      cases merge? a v with
      | none => rfl
      | some m => exact ih m

variable {vs ws : List Value} {x y : Option Value}

theorem distinctKeys?_some {a : Value} (ha : a.DistinctKeys) : DistinctKeys? (some a) := by
  rintro _ ⟨⟩
  exact ha

theorem mergeFrom?_congr (hvs : ∀ v ∈ vs, v.DistinctKeys) :
    ∀ {x y}, Option.Rel Alike x y → DistinctKeys? x → DistinctKeys? y →
      SameJoin (mergeFrom? x vs) (mergeFrom? y vs) := by
  induction vs with
  | nil => exact fun h _ _ => .some h
  | cons v vs ih =>
      intro x y h hx hy
      obtain ⟨hv, hvs⟩ := List.forall_mem_cons.mp hvs
      have hv := distinctKeys?_some hv
      refine rel_bind (sameJoin_left h hx hy hv) fun m m' hm hm' hrel => ?_
      exact ih hvs hrel (distinctKeys?_of_joinAt? hx hv hm) (distinctKeys?_of_joinAt? hy hv hm')

/-- Values may be merged in any order. -/
theorem mergeFrom?_perm (h : vs.Perm ws) :
    ∀ {x}, DistinctKeys? x → (∀ v ∈ vs, v.DistinctKeys) →
      SameJoin (mergeFrom? x vs) (mergeFrom? x ws) := by
  induction h with
  | nil => exact fun _ _ => .refl _
  | @cons v vs ws _ ih =>
      intro x hx hvs
      obtain ⟨hv, hvs⟩ := List.forall_mem_cons.mp hvs
      rw [mergeFrom?, mergeFrom?]
      cases hm : joinAt? x (some v) with
      | none => exact .none
      | some m => exact ih (distinctKeys?_of_joinAt? hx (distinctKeys?_some hv) hm) hvs
  | swap w v vs =>
      intro x hx hvs
      obtain ⟨hv, hvs⟩ := List.forall_mem_cons.mp hvs
      obtain ⟨hw, hvs⟩ := List.forall_mem_cons.mp hvs
      have hw := distinctKeys?_some hw
      have hv := distinctKeys?_some hv
      simp only [mergeFrom?, ← Option.bind_assoc]
      refine rel_bind (sameJoin_right_comm hx hv hw) fun m m' hm hm' hrel => ?_
      obtain ⟨u, hu, hm⟩ := Option.bind_eq_some_iff.mp hm
      obtain ⟨u', hu', hm'⟩ := Option.bind_eq_some_iff.mp hm'
      exact mergeFrom?_congr hvs hrel
        (distinctKeys?_of_joinAt? (distinctKeys?_of_joinAt? hx hv hu) hw hm)
        (distinctKeys?_of_joinAt? (distinctKeys?_of_joinAt? hx hw hu') hv hm')
  | trans h h' ih ih' =>
      intro x hx hvs
      exact (ih hx hvs).trans (ih' hx fun v hv => hvs v (h.mem_iff.mpr hv))

end Value

namespace Schema

open Value (Alike)

/-- What comes out of merging values does not depend on their order. -/
theorem mergeAll?_perm {v w : Value} {vs ws : List Value} (h : (v :: vs).Perm (w :: ws))
    (hvs : ∀ u ∈ v :: vs, u.DistinctKeys) :
    Option.Rel Alike (mergeAll? v vs) (mergeAll? w ws) := by
  have hsame := Value.mergeFrom?_perm h (x := none) nofun hvs
  have hfirst (v : Value) (vs : List Value) :
      Value.mergeFrom? none (v :: vs) = (mergeAll? v vs).map some := Value.mergeFrom?_some v vs
  rw [hfirst, hfirst] at hsame
  exact hsame.of_map_some

/-- The outputs of members put together, if they merge.  Without members the value itself comes
out. -/
def joined? (v : Value) : List Value → Option Value
  | [] => some v
  | w :: ws => mergeAll? w ws

theorem joined?_self (v w : Value) : joined? v [w, w] = w.merge? w := by
  rw [joined?, mergeAll?]
  cases w.merge? w <;> rfl

theorem joined?_perm {v : Value} {ws us : List Value} (h : ws.Perm us)
    (hws : ∀ w ∈ ws, w.DistinctKeys) : Option.Rel Alike (joined? v ws) (joined? v us) := by
  cases ws with
  | nil =>
      obtain rfl := h.nil_eq
      exact .some (.refl v)
  | cons w ws =>
      cases us with
      | nil => exact absurd h.length_eq (by simp)
      | cons u us => exact mergeAll?_perm h hws

/-- Merging several values repeats no key. -/
theorem distinctKeys_of_mergeAll? {v m : Value} {vs : List Value}
    (hvs : ∀ u ∈ v :: vs, u.DistinctKeys) (h : mergeAll? v vs = some m) : m.DistinctKeys := by
  induction vs generalizing v with
  | nil => exact Option.some.inj h ▸ hvs v (List.mem_cons_self ..)
  | cons w ws ih =>
      obtain ⟨u, hu, h⟩ := Option.bind_eq_some_iff.mp h
      obtain ⟨hv, hrest⟩ := List.forall_mem_cons.mp hvs
      obtain ⟨hw, hws⟩ := List.forall_mem_cons.mp hrest
      exact ih (List.forall_mem_cons.mpr ⟨Value.distinctKeys_of_merge? hv hw hu, hws⟩) h

theorem distinctKeys_of_joined? {v m : Value} {ws : List Value} (hv : v.DistinctKeys)
    (hws : ∀ w ∈ ws, w.DistinctKeys) (h : joined? v ws = some m) : m.DistinctKeys := by
  cases ws with
  | nil => exact Option.some.inj h ▸ hv
  | cons w ws => exact distinctKeys_of_mergeAll? hws h

end Schema

end ValueSchema

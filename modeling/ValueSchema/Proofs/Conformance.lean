import ValueSchema.Proofs.Parts
import ValueSchema.Proofs.Rearranged
import ValueSchema.Proofs.Success
import ValueSchema.Proofs.WellBuilt

/-!
# Conformance

`Schema.Conforms` says which values a schema describes, by recursion on the schema and with no
word about parsing: a value has the type of the node, its parts conform to the schemas of
their places, and every check of the node passes it.  An absent key of an object stands for the
missing value.

Conformance does not depend on the order of keys (`Schema.conforms_rearranged`).  The missing
value conforms only to schemas that say so beforehand (`Schema.acceptsUndefinedIn_of_conforms`),
so that an object need not look at a key that is absent.
-/

namespace ValueSchema

/-! ## Values without missing entries -/

/-- No object in the value, at any depth, has a key twice or holds a missing value. -/
inductive Value.Plain : Value → Prop where
  | scalar {v : Value} : v.asItems? = none → v.asEntries? = none → Plain v
  | array {items : List Value} : (∀ v ∈ items, Plain v) → Plain (.array items)
  | set {items : List Value} : (∀ v ∈ items, Plain v) → Plain (.set items)
  | object {entries : Entries Value} :
      entries.keys.Nodup → (∀ k v, entries.get? k = some v → v.isUndefined = false) →
      (∀ k v, entries.get? k = some v → Plain v) → Plain (.object entries)

namespace Value.Plain

theorem of_mem {items : List Value} (h : Plain (.array items)) {v : Value} (hv : v ∈ items) :
    Plain v := by
  cases h with
  | scalar hi => cases hi
  | array hall => exact hall v hv

theorem of_entries {l : List (String × Value)} (hn : (l.map Prod.fst).Nodup)
    (h : ∀ e ∈ l, e.2.isUndefined = false ∧ e.2.Plain) : (record l).Plain := by
  have hget : ∀ k v, Entries.get? ⟨l⟩ k = some v → v.isUndefined = false ∧ v.Plain :=
    fun k v hv => h (k, v) (Entries.mem_of_get? hv)
  exact .object hn (fun k v hv => (hget k v hv).1) fun k v hv => (hget k v hv).2

variable {entries : Entries Value} (h : Plain (.object entries))

include h

theorem nodup : entries.keys.Nodup := by
  cases h with
  | scalar _ he => cases he
  | object hn => exact hn

theorem isUndefined_of_get? {k : String} {v : Value} (hv : entries.get? k = some v) :
    v.isUndefined = false := by
  cases h with
  | scalar _ he => cases he
  | object _ hd => exact hd k v hv

theorem of_get? {k : String} {v : Value} (hv : entries.get? k = some v) : Plain v := by
  cases h with
  | scalar _ he => cases he
  | object _ _ hall => exact hall k v hv

end Value.Plain

/-- Keys in another order hold missing values no more than before. -/
theorem Value.Rearranged.plain {v w : Value} (h : v.Rearranged w) : v.Plain → w.Plain := by
  induction h with
  | refl v => exact id
  | @array as bs hl _ ih =>
      intro hv
      refine .array fun b hb => ?_
      obtain ⟨i, hi, rfl⟩ := List.getElem_of_mem hb
      have ha : i < as.length := hl ▸ hi
      exact ih i _ _ (List.getElem?_eq_getElem ha) (List.getElem?_eq_getElem hi)
        (hv.of_mem (List.getElem_mem ha))
  | @object as bs hn hp hall ih =>
      intro hv
      refine .object (hp.nodup_iff.mp hn) (fun k b hb => ?_) fun k b hb => ?_
      · obtain ⟨a, ha⟩ := exists_get? hp.symm hb
        rw [← (hall k a b ha hb).isUndefined_eq]
        exact hv.isUndefined_of_get? ha
      · obtain ⟨a, ha⟩ := exists_get? hp.symm hb
        exact ih k a b ha hb (hv.of_get? ha)

/-! ## The definition -/

/-- What an object says about a value under an undeclared key. -/
def UnknownKeys.Matches {α : Type} (conforms : α → Value → Prop) (v : Value) :
    UnknownKeys α → Prop
  | .strict => False
  | .catchall s => conforms s v
  | _ => True

/-- What a kind says about a value, where `conforms` is what inner schemas say.  Kinds that
convert or combine values describe none. -/
def Kind.Matches {α : Type} (conforms : α → Value → Prop) (v : Value) : Kind α → Prop
  | .leaf l => l.Admits v
  | .array e => ∃ items, v = .array items ∧ ∀ x ∈ items, conforms e x
  | .tuple items rest =>
      ∃ values, v = .array values ∧ FitsArity items rest values.length ∧
        ∀ (i : Nat) (x : Value), values[i]? = some x →
          ∀ t, Schema.placeSchema? items rest i = some t → conforms t x
  | .object shape unknown =>
      ∃ input, v = .object input ∧
        (∀ k t, shape.get? k = some t → conforms t ((input.get? k).getD .undefined)) ∧
        ∀ k x, shape.get? k = none → input.get? k = some x → unknown.Matches conforms x
  | .record key value =>
      ∃ input, v = .object input ∧
        ∀ k x, input.get? k = some x → conforms key (.string k) ∧ conforms value x
  | .union members => ∃ t ∈ members, conforms t v
  | .optional inner => v = .undefined ∨ conforms inner v
  | .nullable inner => v = .null ∨ conforms inner v
  | .brand inner _ => conforms inner v
  | _ => False

theorem Kind.matches_map {α β : Type} {conforms : β → Value → Prop} {f : α → β} {v : Value}
    {k : Kind α} : (k.map f).Matches conforms v ↔ k.Matches (fun a => conforms (f a)) v := by
  cases k with
  | tuple items rest =>
      have hplace : ∀ i, Schema.placeSchema? (items.map f) (rest.map f) i =
          (Schema.placeSchema? items rest i).map f := by
        intro i
        unfold Schema.placeSchema?
        rw [List.getElem?_map]
        cases items[i]? <;> rfl
      simp [map, Matches, FitsArity, hplace]
  | object shape unknown =>
      simp only [map, Matches, Entries.get?_map, Option.map_eq_some_iff, Option.map_eq_none_iff,
        forall_exists_index, and_imp, forall_apply_eq_imp_iff₂]
      cases unknown <;> rfl
  | union members => simp [map, Matches]
  | _ => rfl

namespace Schema

/-- A value that a schema describes: what its kind says, and every check of the node. -/
def Conforms : Schema → Value → Prop :=
  fold fun s kind v =>
    kind.Matches (fun inner => inner.2) v ∧ ∀ e ∈ s.checks.entries, e.check.evaluate v = .pass

theorem conforms_iff {s : Schema} {v : Value} :
    Conforms s v ↔
      s.kind.Matches Conforms v ∧ ∀ e ∈ s.checks.entries, e.check.evaluate v = .pass := by
  unfold Conforms
  rw [fold_eq, Kind.matches_map]

end Schema

/-- Kinds that test a value and pass it on. -/
def Kind.IsStructural {α : Type} : Kind α → Prop
  | .leaf _ => True
  | .array _ => True
  | .tuple .. => True
  | .object _ unknown => match unknown with
    | .strip => False
    | _ => True
  | .record .. => True
  | .union _ => True
  | .optional _ => True
  | .nullable _ => True
  | .brand .. => True
  | _ => False

/-- A node that tests a value and does nothing else: it converts nothing, leaves out nothing,
and asks no function of the user's. -/
structure Schema.Structural (s : Schema) : Prop extends s.WellBuilt where
  structural : s.kind.IsStructural
  plainChecks : ∀ e ∈ s.checks.entries, e.check.IsPlain
  noCoercion : s.settings.coerces = false
  noCast : s.settings.casts = false
  kept : s.settings.discarded = false

namespace Schema

variable {s : Schema} {v w : Value}

/-! ## Conformance and the order of keys -/

theorem Structural.passes_iff (hs : s.Structural) (h : v.Rearranged w) {e : CheckEntry}
    (he : e ∈ s.checks.entries) : e.check.evaluate v = .pass ↔ e.check.evaluate w = .pass :=
  Check.evaluate_eq_pass_iff (hs.plainChecks e he) h

/-- A value is still a literal when its keys are arranged in another way. -/
theorem admits_rearranged {l : Leaf} (h : v.Rearranged w) (hl : l.Admits v) : l.Admits w := by
  cases l with
  | any => exact trivial
  | unknown => exact trivial
  | literal u => exact (h.equal_congr (.refl u)).symm.trans hl
  | enum us =>
      obtain ⟨u, hu, heq⟩ := hl
      exact ⟨u, hu, (Value.Rearranged.equal_congr (.refl u) h).symm.trans heq⟩
  | never =>
      obtain rfl : v = .undefined := hl
      exact h.eq_of_undefined
  | undefined =>
      obtain rfl : v = .undefined := hl
      exact h.eq_of_undefined
  | null =>
      obtain rfl : v = .null := hl
      cases h
      rfl
  | number =>
      obtain ⟨x, rfl, hx⟩ := hl
      cases h
      exact ⟨x, rfl, hx⟩
  | _ =>
      obtain ⟨x, rfl⟩ := hl
      cases h
      exact ⟨x, rfl⟩

theorem placeSchema?_mem {α : Type} {items : List α} {rest : Option α} {i : Nat} {t : α}
    (h : placeSchema? items rest i = some t) : t ∈ (Kind.tuple items rest).children := by
  unfold placeSchema? at h
  cases hi : items[i]? with
  | none =>
      rw [hi] at h
      exact List.mem_append_right _ (by simp [show rest = some t from h])
  | some u =>
      rw [hi] at h
      obtain rfl := Option.some.inj h
      exact List.mem_append_left _ (List.mem_of_getElem? hi)

theorem field_mem {α : Type} {shape : Entries α} {unknown : UnknownKeys α} {k : String} {t : α}
    (h : shape.get? k = some t) : t ∈ (Kind.object shape unknown).children :=
  List.mem_append_left _ (List.mem_map.mpr ⟨(k, t), Entries.mem_of_get? h, rfl⟩)

/-- What a kind says about a value does not depend on the order of keys, if what inner schemas
say does not. -/
theorem matches_rearranged {α : Type} {conforms : α → Value → Prop} {kind : Kind α}
    (hinner : ∀ t ∈ kind.children, ∀ v w, v.Rearranged w → conforms t v → conforms t w)
    (h : v.Rearranged w) (hv : kind.Matches conforms v) : kind.Matches conforms w := by
  cases kind with
  | leaf l => exact admits_rearranged h hv
  | array e =>
      obtain ⟨items, rfl, hall⟩ := hv
      have he := hinner e (List.mem_singleton.mpr rfl)
      cases h with
      | refl => exact ⟨items, rfl, hall⟩
      | @array _ bs hl hitems =>
          refine ⟨bs, rfl, fun b hb => ?_⟩
          obtain ⟨i, hi, rfl⟩ := List.getElem_of_mem hb
          have ha : i < items.length := hl ▸ hi
          exact he _ _ (hitems i _ _ (List.getElem?_eq_getElem ha) (List.getElem?_eq_getElem hi))
            (hall _ (List.getElem_mem ha))
  | tuple items rest =>
      obtain ⟨values, rfl, harity, hall⟩ := hv
      cases h with
      | refl => exact ⟨values, rfl, harity, hall⟩
      | @array _ bs hl hitems =>
          refine ⟨bs, rfl, hl ▸ harity, fun i b hb t ht => ?_⟩
          have hi : i < values.length := hl ▸ (List.getElem?_eq_some_iff.mp hb).1
          have ha := List.getElem?_eq_getElem hi
          exact hinner t (placeSchema?_mem ht) _ _ (hitems i _ _ ha hb) (hall i _ ha t ht)
  | object shape unknown =>
      obtain ⟨input, rfl, hfields, hothers⟩ := hv
      cases h with
      | refl => exact ⟨input, rfl, hfields, hothers⟩
      | @object _ bs hn hp hall =>
          refine ⟨bs, rfl, fun k t ht => ?_, fun k b hk hb => ?_⟩
          · have hfield := hfields k t ht
            cases hb : bs.get? k with
            | none =>
                rw [(Value.Rearranged.get?_eq_none_iff hp k).mpr hb] at hfield
                exact hfield
            | some b =>
                obtain ⟨a, ha⟩ := Value.Rearranged.exists_get? hp.symm hb
                rw [ha] at hfield
                exact hinner t (field_mem ht) a b (hall k a b ha hb) hfield
          · obtain ⟨a, ha⟩ := Value.Rearranged.exists_get? hp.symm hb
            have hother := hothers k a hk ha
            cases unknown with
            | catchall s =>
                have hs : s ∈ (Kind.object shape (.catchall s)).children := by simp [Kind.children]
                exact hinner s hs a b (hall k a b ha hb) hother
            | _ => exact hother
  | record key value =>
      obtain ⟨input, rfl, hentries⟩ := hv
      cases h with
      | refl => exact ⟨input, rfl, hentries⟩
      | @object _ bs hn hp hall =>
          refine ⟨bs, rfl, fun k b hb => ?_⟩
          obtain ⟨a, ha⟩ := Value.Rearranged.exists_get? hp.symm hb
          obtain ⟨hkey, hvalue⟩ := hentries k a ha
          have hmem : value ∈ (Kind.record key value).children := by simp [Kind.children]
          exact ⟨hkey, hinner value hmem a b (hall k a b ha hb) hvalue⟩
  | union members =>
      obtain ⟨t, ht, hv⟩ := hv
      exact ⟨t, ht, hinner t ht v w h hv⟩
  | optional inner =>
      rcases hv with rfl | hv
      · exact .inl h.eq_of_undefined
      · exact .inr (hinner inner (List.mem_singleton.mpr rfl) v w h hv)
  | nullable inner =>
      rcases hv with rfl | hv
      · exact .inl h.eq_of_null
      · exact .inr (hinner inner (List.mem_singleton.mpr rfl) v w h hv)
  | brand inner name => exact hinner inner (List.mem_singleton.mpr rfl) v w h hv
  | _ => exact hv

/-- A value conforms however its keys are arranged. -/
theorem conforms_rearranged (s : Schema) :
    s.Everywhere none Structural → ∀ v w, v.Rearranged w → s.Conforms v → s.Conforms w := by
  induction s using Schema.induction with
  | h s ih =>
      intro hs v w h hv
      obtain ⟨hmatches, hchecks⟩ := conforms_iff.mp hv
      have hinner : ∀ t ∈ s.kind.children, ∀ v w, v.Rearranged w → t.Conforms v → t.Conforms w :=
        fun t ht => ih t ht (hs.inside (.inl ht))
      refine conforms_iff.mpr ⟨matches_rearranged hinner h hmatches, fun e he => ?_⟩
      exact (hs.here.passes_iff h he).mp (hchecks e he)

/-! ## Missing values -/

theorem anyAcceptsUndefinedBy_of_mem {follow : SchemaId → Bool} {members : List Schema}
    {t : Schema} (ht : t ∈ members) (h : acceptsUndefinedBy follow t = true) :
    anyAcceptsUndefinedBy follow members = true := by
  induction members with
  | nil => cases ht
  | cons s members ih =>
      rw [anyAcceptsUndefinedBy, Bool.or_eq_true]
      cases List.mem_cons.mp ht with
      | inl he => exact .inl (he ▸ h)
      | inr hm => exact .inr (ih hm)

theorem acceptsUndefined_of_admits {l : Leaf} (h : l.Admits .undefined) :
    l.acceptsUndefined = true := by
  cases l with
  | literal u =>
      cases u with
      | undefined => rfl
      | _ => cases h
  | enum us =>
      obtain ⟨u, hu, heq⟩ := h
      refine List.any_eq_true.mpr ⟨u, hu, ?_⟩
      cases u with
      | undefined => rfl
      | _ => cases heq
  | any => rfl
  | unknown => rfl
  | never => rfl
  | undefined => rfl
  | null => cases h
  | number =>
      obtain ⟨x, hx, -⟩ := h
      cases hx
  | _ =>
      obtain ⟨x, hx⟩ := h
      cases hx

/-- What the missing value conforms to is known to accept it, whatever lazy nodes do. -/
theorem acceptsUndefinedBy_of_conforms (follow : SchemaId → Bool) (s : Schema) :
    s.Conforms .undefined → acceptsUndefinedBy follow s = true := by
  induction s using Schema.induction with
  | h s ih =>
      intro h
      have hmatches := (conforms_iff.mp h).1
      obtain ⟨id, kind, checks, settings⟩ := s
      rw [acceptsUndefinedBy]
      cases kind with
      | leaf l => exact acceptsUndefined_of_admits hmatches
      | array e =>
          obtain ⟨items, hv, -⟩ := hmatches
          cases hv
      | tuple items rest =>
          obtain ⟨values, hv, -⟩ := hmatches
          cases hv
      | object shape unknown =>
          obtain ⟨input, hv, -⟩ := hmatches
          cases hv
      | record key value =>
          obtain ⟨input, hv, -⟩ := hmatches
          cases hv
      | union members =>
          obtain ⟨t, ht, hv⟩ := hmatches
          exact anyAcceptsUndefinedBy_of_mem ht (ih t ht hv)
      | optional inner => rfl
      | nullable inner =>
          rcases hmatches with hv | hv
          · cases hv
          · exact ih inner (List.mem_singleton.mpr rfl) hv
      | brand inner name => exact ih inner (List.mem_singleton.mpr rfl) hmatches
      | _ => exact hmatches.elim

theorem acceptsUndefinedIn_of_conforms {s : Schema} (h : s.Conforms .undefined)
    (arena : Option Arena) : s.acceptsUndefinedIn arena = true := by
  unfold acceptsUndefinedIn
  cases arena with
  | none => exact acceptsUndefinedBy_of_conforms _ s h
  | some a =>
      dsimp only
      cases a.maxDepth with
      | zero => exact acceptsUndefinedBy_of_conforms _ s h
      | succ n => exact acceptsUndefinedBy_of_conforms _ s h

end Schema

end ValueSchema

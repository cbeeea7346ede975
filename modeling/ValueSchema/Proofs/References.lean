import ValueSchema.Proofs.Heeded
import ValueSchema.Proofs.Kinds

/-!
# References between definitions

`Arena.unresolved` lists, in order and each once, the ids without a definition among those that
are declared or that occur in a definition (`Arena.mem_unresolved_iff`).  It looks into the
schemas of all definitions, but not from one definition into another.

That is enough for every call: a visit that a call makes stands inside some definition of the
arena, whatever lazy nodes have been resolved before (`Arena.Holds`).  So when the list is empty,
no call on a definition finds a lazy node without a definition (`Arena.unresolved_decides`).
-/

namespace ValueSchema

/-! ## Lazy nodes inside a schema -/

namespace Schema

/-- The second schema is the first one or stands inside of it.  Definitions are not looked up. -/
def Contains : Schema → Schema → Prop := Relation.ReflTransGen fun s t => t ∈ s.kind.children

variable {s t : Schema} {id : SchemaId}

theorem contains_iff : s.Contains t ↔ t = s ∨ ∃ u ∈ s.kind.children, u.Contains t := by
  constructor
  · intro h
    rcases Relation.ReflTransGen.cases_head h with rfl | ⟨u, hu, ht⟩
    · exact .inl rfl
    · exact .inr ⟨u, hu, ht⟩
  · rintro (rfl | ⟨u, hu, ht⟩)
    · exact .refl
    · exact .head hu ht

theorem lazyIds_of_lazy (hk : s.kind = .lazy id) : s.lazyIds = [id] := by
  rw [lazyIds, fold_eq, hk]
  rfl

theorem lazyIds_of_not_lazy (hk : ∀ i, s.kind ≠ .lazy i) :
    s.lazyIds = s.kind.children.flatMap lazyIds := by
  have hflat : (s.kind.map fun t => (t, t.lazyIds)).children.flatMap Prod.snd =
      s.kind.children.flatMap lazyIds := by
    rw [Kind.children_map, List.flatMap_map]
  conv_lhs => unfold lazyIds
  rw [fold_eq, ← hflat]
  cases hs : s.kind with
  | lazy i => exact absurd hs (hk i)
  | _ => rfl

/-- The ids of a schema are those of the lazy nodes inside of it. -/
theorem mem_lazyIds_iff : id ∈ s.lazyIds ↔ ∃ t, s.Contains t ∧ t.kind = .lazy id := by
  induction s using Schema.induction with
  | h s ih =>
      by_cases hlazy : ∃ i, s.kind = .lazy i
      · obtain ⟨i, hk⟩ := hlazy
        have hself : ∀ t, s.Contains t ↔ t = s := by
          intro t
          rw [contains_iff, hk]
          simp [Kind.children]
        simp [lazyIds_of_lazy hk, hself, hk, eq_comm]
      · have hk : ∀ i, s.kind ≠ .lazy i := fun i hi => hlazy ⟨i, hi⟩
        rw [lazyIds_of_not_lazy hk, List.mem_flatMap]
        constructor
        · rintro ⟨u, hu, hid⟩
          obtain ⟨t, ht, hid⟩ := (ih u hu).mp hid
          exact ⟨t, .head hu ht, hid⟩
        · rintro ⟨t, ht, hid⟩
          rcases contains_iff.mp ht with rfl | ⟨u, hu, ht⟩
          · exact absurd hid (hk id)
          · exact ⟨u, hu, (ih u hu).mpr ⟨t, ht, hid⟩⟩

end Schema

/-! ## The list of references -/

/-- One id comes before another one: by arena, then by place. -/
def SchemaId.Before (i j : SchemaId) : Prop :=
  i.arena < j.arena ∨ i.arena = j.arena ∧ i.index < j.index

/-- Dropping repeated items keeps what holds of every two items in order. -/
theorem pairwise_eraseDups {α : Type} [BEq α] [LawfulBEq α] {R : α → α → Prop} :
    ∀ {l : List α}, l.Pairwise R → l.eraseDups.Pairwise fun a b => R a b ∧ a ≠ b
  | [], _ => by simp
  | a :: l, h => by
      obtain ⟨hhead, htail⟩ := List.pairwise_cons.mp h
      have hkept : (l.filter fun b => !b == a).Pairwise R := htail.filter _
      rw [List.eraseDups_cons]
      refine List.pairwise_cons.mpr ⟨fun b hb => ?_, pairwise_eraseDups hkept⟩
      obtain ⟨hb, hne⟩ := List.mem_filter.mp (List.mem_eraseDups.mp hb)
      exact ⟨hhead b hb, fun he => by simp [he] at hne⟩
termination_by l => l.length
decreasing_by exact Nat.lt_succ_of_le (List.length_filter_le ..)

namespace Arena

/-- An id is declared in an arena. -/
def Declares (a : Arena) (id : SchemaId) : Prop := ∃ i < a.size, id = a.idAt i

/-- A schema is a definition of an arena. -/
def Defines (a : Arena) (s : Schema) : Prop := ∃ slot ∈ a.slots, slot.schema = some s

/-- An id is declared in an arena, or it occurs in a lazy node inside of a definition. -/
def Mentions (a : Arena) (id : SchemaId) : Prop :=
  a.Declares id ∨ ∃ s, a.Defines s ∧ ∃ t, s.Contains t ∧ t.kind = .lazy id

variable {a : Arena} {id : SchemaId}

theorem defines_of_get? {s : Schema} (h : a.get? id = some s) : a.Defines s := by
  obtain ⟨slot, hslot, hs⟩ := Option.bind_eq_some_iff.mp h
  unfold slot? at hslot
  split at hslot
  · exact ⟨slot, List.mem_of_getElem? hslot, hs⟩
  · cases hslot

theorem mem_mentioned_iff : id ∈ a.mentioned ↔ a.Mentions id := by
  have hdeclared : id ∈ (List.range a.size).map a.idAt ↔ a.Declares id := by
    simp [Declares, eq_comm]
  have hinside : id ∈ a.slots.flatMap (fun s => (s.schema.map Schema.lazyIds).getD []) ↔
      ∃ s, a.Defines s ∧ ∃ t, s.Contains t ∧ t.kind = .lazy id := by
    rw [List.mem_flatMap]
    constructor
    · rintro ⟨slot, hslot, hid⟩
      cases hs : slot.schema with
      | none => simp [hs] at hid
      | some s =>
          rw [hs] at hid
          exact ⟨s, ⟨slot, hslot, hs⟩, Schema.mem_lazyIds_iff.mp hid⟩
    · rintro ⟨s, ⟨slot, hslot, hs⟩, ht⟩
      refine ⟨slot, hslot, ?_⟩
      rw [hs]
      exact Schema.mem_lazyIds_iff.mpr ht
  rw [mentioned, List.mem_append, hdeclared, hinside]
  exact or_comm

/-- The list holds the ids that are declared or used and have no definition. -/
theorem mem_unresolved_iff : id ∈ a.unresolved ↔ a.Mentions id ∧ a.get? id = none := by
  rw [unresolved, List.mem_eraseDups, List.mem_mergeSort, List.mem_filter, mem_mentioned_iff,
    Option.isNone_iff_eq_none]

theorem idLe_iff {i j : SchemaId} :
    idLe i j = true ↔ i.arena < j.arena ∨ i.arena = j.arena ∧ i.index ≤ j.index := by
  simp [idLe]

/-- The list is in order and holds each id once. -/
theorem unresolved_pairwise (a : Arena) : a.unresolved.Pairwise SchemaId.Before := by
  have htrans (i j k : SchemaId) (hij : idLe i j = true) (hjk : idLe j k = true) :
      idLe i k = true := by
    rw [idLe_iff] at *
    omega
  have htotal (i j : SchemaId) : (idLe i j || idLe j i) = true := by
    rw [Bool.or_eq_true, idLe_iff, idLe_iff]
    omega
  have hsorted := List.pairwise_mergeSort htrans htotal
    (a.mentioned.filter fun id => (a.get? id).isNone)
  refine (pairwise_eraseDups hsorted).imp fun {i j} hij => ?_
  obtain ⟨hle, hne⟩ := hij
  obtain ⟨ai, ni⟩ := i
  obtain ⟨aj, nj⟩ := j
  rw [idLe_iff] at hle
  have hne : ¬ (ai = aj ∧ ni = nj) := fun h => hne (by rw [h.1, h.2])
  show ai < aj ∨ ai = aj ∧ ni < nj
  dsimp only at hle
  omega

/-! ## Calls on definitions -/

/-- A schema stands inside of a definition of an arena. -/
def Holds (a : Arena) (t : Schema) : Prop := ∃ s, a.Defines s ∧ s.Contains t

/-- One arena has all definitions of another one. -/
def Extends (b a : Arena) : Prop := ∀ id s, a.get? id = some s → b.get? id = some s

theorem get?_eq_some_iff {s : Schema} :
    a.get? id = some s ↔
      id.arena = a.id ∧ ∃ slot, a.slots[id.index]? = some slot ∧ slot.schema = some s := by
  unfold get? slot?
  split
  next h => simp [h, Option.bind_eq_some_iff]
  next h => simp [h]

theorem extends_self (a : Arena) : a.Extends a := fun _ _ h => h

theorem Extends.trans {b c : Arena} (hc : c.Extends b) (hb : b.Extends a) : c.Extends a :=
  fun id s h => hc id s (hb id s h)

theorem extends_declare {b : Arena} {name : String} (h : a.declare name = .ok (id, b)) :
    b.Extends a := by
  rw [declare_eq] at h
  split at h
  · cases h
  · cases h
    intro i s hs
    obtain ⟨hi, slot, hslot, hs⟩ := get?_eq_some_iff.mp hs
    have hlt := (List.getElem?_eq_some_iff.mp hslot).1
    exact get?_eq_some_iff.mpr ⟨hi, slot, (List.getElem?_append_left hlt).trans hslot, hs⟩

theorem extends_define {b : Arena} {schema : Schema} (h : a.define id schema = .ok b) :
    b.Extends a := by
  rw [define_eq] at h
  split at h
  next => cases h
  next free hfree =>
      split at h
      next => cases h
      next hnone =>
          cases h
          intro i s hs
          obtain ⟨hi, slot, hslot, hs⟩ := get?_eq_some_iff.mp hs
          have hne : id.index ≠ i.index := by
            -- The place that is filled had no definition before.
            intro he
            unfold slot? at hfree
            split at hfree
            · rw [he, hslot] at hfree
              cases hfree
              simp [hs] at hnone
            · cases hfree
          exact get?_eq_some_iff.mpr ⟨hi, slot, (List.getElem?_set_ne hne).trans hslot, hs⟩

theorem extends_register {b : Arena} {name : String} {schema : Schema}
    (h : a.register name schema = .ok (id, b)) : b.Extends a := by
  rw [register_eq] at h
  cases hd : a.declare name with
  | error e =>
      rw [hd] at h
      cases h
  | ok r =>
      obtain ⟨i, c⟩ := r
      rw [hd] at h
      change (c.define i schema).map _ = _ at h
      cases hc : c.define i schema with
      | error e =>
          rw [hc] at h
          cases h
      | ok d =>
          rw [hc] at h
          cases h
          exact (extends_define hc).trans (extends_declare hd)

theorem get?_of_holds (h : a.unresolved = []) {t : Schema} (ht : a.Holds t)
    (hk : t.kind = .lazy id) : ∃ s, a.get? id = some s := by
  obtain ⟨s, hs, ht⟩ := ht
  have hmentioned : a.Mentions id := .inr ⟨s, hs, t, ht, hk⟩
  refine Option.ne_none_iff_exists'.mp fun hnone => ?_
  have hmem := mem_unresolved_iff.mpr ⟨hmentioned, hnone⟩
  rw [h] at hmem
  cases hmem

/-- Everything that is found from a schema inside of a definition stands inside of one. -/
theorem Holds.everywhere {b : Arena} (h : a.unresolved = []) (hb : b.Extends a) {t : Schema}
    (ht : a.Holds t) : t.Everywhere (some b) a.Holds := by
  refine .of_closed ht (fun t u ht hu => ?_) fun _ ht => ht
  rcases hu with hu | ⟨id, hk, hu⟩
  · obtain ⟨s, hs, ht⟩ := ht
    exact ⟨s, hs, ht.tail hu⟩
  · obtain ⟨s, hs⟩ := get?_of_holds h ht hk
    obtain rfl : s = u := Option.some.inj ((hb id s hs).symm.trans hu)
    exact ⟨s, defines_of_get? hs, .refl⟩

end Arena

/-- The misuse of a lazy node that cannot be resolved. -/
inductive Misuse.Dangling : Misuse → Prop where
  | missingArena (id : SchemaId) : Dangling (.missingArena id)
  | undefinedId (id : SchemaId) : Dangling (.undefinedId id)

namespace Schema

/-- When everything that a call finds in the arena resolves, no lazy node is left without its
definition. -/
theorem not_dangling {s : Schema} {a b : Arena} (h : a.unresolved = []) (hb : b.Extends a)
    (hs : a.Holds s) (mode : Mode) {options : Options} (harena : options.arena = some b) (v : Value)
    {e : Misuse} (he : e.Dangling) : (s.safeParse mode options v).result ≠ .error e := by
  intro hresult
  obtain ⟨n, u, hu, hreports⟩ := exists_reports_of_safeParse hresult
  have hheld : u.schema.Everywhere options.arena a.Holds :=
    (hu.imp Visit.Heeds.makes).everywhere (harena ▸ hs.everywhere h hb)
  cases he with
  | missingArena id =>
      cases hreports with
      | missingArena hk hnone => cases harena.symm.trans hnone
  | undefinedId id =>
      cases hreports with
      | @undefinedId _ c hk hc _ hget =>
          obtain rfl : b = c := Option.some.inj (harena.symm.trans hc)
          obtain ⟨t, ht⟩ := Arena.get?_of_holds h hheld.here hk
          cases (hb id t ht).symm.trans hget

end Schema

namespace Arena

/-- The list is in order, holds each id once, and holds just the ids that are declared or used and
have no definition.  When it is empty, every id of the arena has a definition, and no call on it
is left without a definition, also when the arena has grown since. -/
theorem unresolved_decides (a : Arena) :
    a.unresolved.Pairwise SchemaId.Before ∧
      (∀ id, id ∈ a.unresolved ↔ a.Mentions id ∧ a.get? id = none) ∧
      (a.unresolved = [] → ∀ id, a.Declares id → ∃ s, a.get? id = some s ∧
        ∀ (b : Arena) (mode : Mode) (options : Options) (v : Value) (e : Misuse), b.Extends a →
          options.arena = some b → e.Dangling →
            (s.safeParse mode options v).result ≠ .error e) := by
  refine ⟨a.unresolved_pairwise, fun id => mem_unresolved_iff, fun h id hid => ?_⟩
  have hmember : ¬ (a.Mentions id ∧ a.get? id = none) := by
    rw [← mem_unresolved_iff, h]
    exact List.not_mem_nil
  obtain ⟨s, hs⟩ := Option.ne_none_iff_exists'.mp fun hnone => hmember ⟨.inl hid, hnone⟩
  refine ⟨s, hs, fun b mode options v e hb harena he => ?_⟩
  exact Schema.not_dangling h hb ⟨s, defines_of_get? hs, .refl⟩ mode harena v he

/-- A tree with a mark that may be missing. -/
def treeNode : Schema :=
  ⟨4, .object ⟨[("mark", ⟨1, .optional ⟨0, .lazy ⟨0, 1⟩, .empty, {}⟩, .empty, {}⟩),
    ("trees", ⟨3, .array ⟨2, .lazy ⟨0, 0⟩, .empty, {}⟩, .empty, {}⟩)]⟩ .strict, .empty, {}⟩

/-- The definitions of trees and marks. -/
def treeArena : Arena where
  id := 0
  slots := [⟨"Tree", some treeNode⟩, ⟨"Mark", some ⟨5, .leaf .number, .empty, {}⟩⟩]

theorem treeArena_resolved :
    treeArena.unresolved = [] ∧
      ∀ (mode : Mode) (v : Value) (e : Misuse), e.Dangling →
        (treeNode.safeParse mode treeArena.toOptions v).result ≠ .error e := by
  have hnone : (treeArena.mentioned.filter fun id => (treeArena.get? id).isNone) = [] := rfl
  have h : treeArena.unresolved = [] := by
    rw [unresolved, hnone, List.mergeSort_nil, List.eraseDups_nil]
  obtain ⟨s, hs, hcalls⟩ := (unresolved_decides treeArena).2.2 h ⟨0, 0⟩ ⟨0, by decide, rfl⟩
  obtain rfl : treeNode = s := Option.some.inj hs
  exact ⟨h, fun mode v e he => hcalls treeArena mode _ v e treeArena.extends_self rfl he⟩

end Arena

end ValueSchema

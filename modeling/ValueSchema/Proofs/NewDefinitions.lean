import Mathlib.Data.List.Forall2
import ValueSchema.Schema.Builder

/-!
# New definitions

A node is defined once, with an id that no node before it has.  `Schema.MadeOf` is about the
definitions that are made one after another: each has the next id, and its inner schemas were
known before.  Ids identify the schemas that are `Schema.Identified`, and more definitions keep it
so (`Schema.Identified.madeOf`).

`Build.Defines` says of a build which definitions it makes, and `Build.Makes` only what it gives.
-/

namespace ValueSchema

/-! ## Definitions one after another -/

namespace Schema

/-- What is known with new definitions. -/
def knownWith (K : Schema → Prop) (ds : List Schema) (t : Schema) : Prop := K t ∨ t ∈ ds

/-- New definitions of what is known, the last one first.  Each has the next id and is such as `C`
says, and its inner schemas were known before. -/
def MadeOf (C K : Schema → Prop) (n : Nat) : List Schema → Prop
  | [] => True
  | d :: ds =>
      d.id = n + ds.length ∧ C d ∧ (∀ t ∈ d.kind.children, knownWith K ds t) ∧ MadeOf C K n ds

variable {C K : Schema → Prop} {n : Nat}

theorem knownWith_nil : knownWith K [] = K := by
  funext t
  simp [knownWith]

theorem knownWith_append (ds ds' : List Schema) :
    knownWith (knownWith K ds) ds' = knownWith K (ds' ++ ds) := by
  funext t
  simp [knownWith, or_assoc, or_comm]

theorem knownWith_cons (d : Schema) (ds : List Schema) (t : Schema) :
    knownWith K (d :: ds) t ↔ t = d ∨ knownWith K ds t := by
  simp [knownWith, or_left_comm]

theorem MadeOf.append {ds : List Schema} (h : MadeOf C K n ds) :
    ∀ {ds' : List Schema}, MadeOf C (knownWith K ds) (n + ds.length) ds' → MadeOf C K n (ds' ++ ds)
  | [], _ => h
  | d :: ds', ⟨hid, hC, hchildren, hrest⟩ => by
      rw [knownWith_append] at hchildren
      refine ⟨?_, hC, hchildren, h.append hrest⟩
      show d.id = n + (ds' ++ ds).length
      rw [hid, List.length_append]
      omega

/-- What all new definitions have when their inner schemas do holds of all that is known with
them. -/
theorem MadeOf.forall {P : Schema → Prop} (hK : ∀ t, K t → P t)
    (hP : ∀ d, C d → (∀ t ∈ d.kind.children, P t) → P d) :
    ∀ {ds : List Schema}, MadeOf C K n ds → ∀ t, knownWith K ds t → P t
  | [], _, t, ht => hK t (knownWith_nil (K := K) ▸ ht)
  | d :: ds, ⟨_, hC, hchildren, hrest⟩, t, ht => by
      have ih := hrest.forall hK hP
      rcases (knownWith_cons d ds t).mp ht with rfl | ht
      · exact hP t hC fun u hu => ih u (hchildren u hu)
      · exact ih t ht

/-- Ids identify the schemas with a property: different ones have different ids, and all ids are
below the next one.  What stands inside a schema has the property too. -/
structure Identified (K : Schema → Prop) (n : Nat) : Prop where
  closed : ∀ s, K s → ∀ t ∈ s.kind.children, K t
  below : ∀ s, K s → s.id < n
  unique : ∀ s, K s → ∀ t, K t → s.id = t.id → s = t

/-- More definitions keep ids identifying. -/
theorem Identified.madeOf (h : Identified K n) :
    ∀ {ds : List Schema}, MadeOf C K n ds → Identified (knownWith K ds) (n + ds.length)
  | [], _ => knownWith_nil ▸ h
  | d :: ds, ⟨hid, _, hchildren, hrest⟩ => by
      have ih := h.madeOf hrest
      -- The new id is above all others.
      have hnew (t : Schema) (ht : knownWith K ds t) : t.id ≠ d.id :=
        hid ▸ Nat.ne_of_lt (ih.below t ht)
      have hmore : knownWith K (d :: ds) = fun t => t = d ∨ knownWith K ds t :=
        funext fun t => propext (knownWith_cons d ds t)
      rw [hmore]
      refine ⟨?_, ?_, ?_⟩
      · rintro s (rfl | hs) t ht
        · exact .inr (hchildren t ht)
        · exact .inr (ih.closed s hs t ht)
      · rintro s (rfl | hs)
        · exact hid ▸ Nat.lt_succ_self _
        · exact Nat.lt_succ_of_lt (ih.below s hs)
      · rintro s (rfl | hs) t (rfl | ht) he
        · rfl
        · exact absurd he.symm (hnew t ht)
        · exact absurd he (hnew s hs)
        · exact ih.unique s hs t ht he

end Schema

/-! ## Builds -/

namespace Build

open Schema

variable {α β : Type}

/-- What a build makes has a property, whatever the next id is. -/
def Makes (x : Build α) (P : α → Prop) : Prop := ∀ n, P (x n).1

section Makes

variable {P : α → Prop} {Q : β → Prop}

theorem makes_pure {a : α} (h : P a) : Makes (pure a) P := fun _ => h

theorem makes_bind {x : Build α} {f : α → Build β} (hx : Makes x P)
    (hf : ∀ a, P a → Makes (f a) Q) : Makes (x >>= f) Q :=
  fun n => hf _ (hx n) _

theorem makes_mapM {f : α → Build β} {l : List α} {R : α → β → Prop}
    (hf : ∀ a ∈ l, Makes (f a) (R a)) : Makes (l.mapM f) (List.Forall₂ R l) := by
  induction l with
  | nil => exact makes_pure .nil
  | cons a l ih =>
      obtain ⟨ha, hl⟩ := List.forall_mem_cons.mp hf
      rw [List.mapM_cons]
      refine makes_bind ha fun b hb => makes_bind (ih hl) fun bs hbs => ?_
      exact makes_pure (.cons hb hbs)

end Makes

/-- A build makes definitions such as `C` says of what is known, and what it gives is in a relation
to them. -/
def Defines (x : Build α) (C K : Schema → Prop) (P : α → List Schema → Prop) : Prop :=
  ∀ n, ∃ ds, MadeOf C K n ds ∧ (x n).2 = n + ds.length ∧ P (x n).1 ds

section Defines

variable {C K : Schema → Prop} {P : α → List Schema → Prop} {Q : β → List Schema → Prop}

theorem defines_pure {a : α} (h : P a []) : Defines (pure a) C K P :=
  fun _ => ⟨[], trivial, rfl, h⟩

theorem defines_bind {x : Build α} {f : α → Build β} (hx : Defines x C K P)
    (hf : ∀ a ds, P a ds → Defines (f a) C (knownWith K ds) fun b ds' => Q b (ds' ++ ds)) :
    Defines (x >>= f) C K Q := by
  intro n
  obtain ⟨ds, hmade, hnext, hP⟩ := hx n
  obtain ⟨ds', hmade', hnext', hQ⟩ := hf _ ds hP (x n).2
  refine ⟨ds' ++ ds, hmade.append (hnext ▸ hmade'), hnext'.trans ?_, hQ⟩
  rw [hnext, List.length_append]
  omega

theorem Defines.mono {x : Build α} {R : α → List Schema → Prop} (hx : Defines x C K P)
    (h : ∀ a ds, P a ds → R a ds) : Defines x C K R := by
  intro n
  obtain ⟨ds, hmade, hnext, hP⟩ := hx n
  exact ⟨ds, hmade, hnext, h _ _ hP⟩

/-- Builds one after another, each of which gives something in a relation to what it is built
from and to what is known with its definitions.  The relation has to hold later too. -/
theorem defines_mapM {f : α → Build β} {R : α → β → (Schema → Prop) → Prop}
    (hR : ∀ a b {K K' : Schema → Prop}, (∀ t, K t → K' t) → R a b K → R a b K') :
    ∀ {l : List α} {K : Schema → Prop},
      (∀ a ∈ l, ∀ K' : Schema → Prop, (∀ t, K t → K' t) →
        Defines (f a) C K' fun b ds => R a b (knownWith K' ds)) →
      Defines (l.mapM f) C K fun bs ds =>
        List.Forall₂ (fun a b => R a b (knownWith K ds)) l bs
  | [], _, _ => defines_pure .nil
  | a :: l, K, hf => by
      obtain ⟨ha, hl⟩ := List.forall_mem_cons.mp hf
      rw [List.mapM_cons]
      refine defines_bind (ha K fun _ h => h) fun b ds hb => ?_
      have hrest := defines_mapM hR (K := knownWith K ds) fun a' ha' K' hK' =>
        hl a' ha' K' fun t ht => hK' t (.inl ht)
      refine defines_bind hrest fun bs ds' hbs => defines_pure ?_
      rw [List.nil_append, ← knownWith_append]
      exact .cons (hR a b (fun _ => .inl) hb) hbs

end Defines

end Build

end ValueSchema

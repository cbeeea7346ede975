import Mathlib.Tactic.Choose
import ValueSchema.Proofs.Kinds
import ValueSchema.Proofs.NewDefinitions
import ValueSchema.Proofs.References

/-!
# Schemas in shared memory

A schema is held by the address of a cell, and the inner schemas of a cell are addresses again, so
that a definition may be shared by any number of schemas.  `Memory.Reads` says which schema an
address stands for.

Memory changes in one way only: a cell is written (`Memory.put`).  An address from which nothing
leads to this cell reads as before (`Memory.Reads.put`).  A new cell is one that nothing leads to.
So a call of a builder may write new cells, and the cell of its receiver provided that no other
address in use leads there (`Memory.Writes`).
-/

namespace ValueSchema

/-- A definition in memory. -/
structure Cell where
  /-- The id of the node. -/
  id : Nat
  /-- What the node is.  Its inner schemas are addresses. -/
  kind : Kind Nat
  /-- Its checks. -/
  checks : Checks
  /-- Its settings. -/
  settings : Settings

/-- The definitions that there are. -/
structure Memory where
  /-- The cell at each address. -/
  cells : Nat → Cell
  /-- The next address that is free. -/
  next : Nat

namespace Memory

/-- Nothing is defined. -/
def empty : Memory := ⟨fun _ => ⟨0, .leaf .any, .empty, {}⟩, 0⟩

/-- Writes a cell. -/
def put (m : Memory) (x : Nat) (c : Cell) : Memory where
  cells a := if a = x then c else m.cells a
  next := max m.next (x + 1)

/-- An address stands for a schema. -/
inductive Reads (m : Memory) : Nat → Schema → Prop where
  | cell {a : Nat} {read : Nat → Schema} : a < m.next →
      (∀ b ∈ (m.cells a).kind.children, Reads m b (read b)) →
      Reads m a ⟨(m.cells a).id, (m.cells a).kind.map read, (m.cells a).checks,
        (m.cells a).settings⟩

/-- One address leads to another one: it is the same, or an inner schema leads there. -/
def Leads (m : Memory) : Nat → Nat → Prop :=
  Relation.ReflTransGen fun a b => b ∈ (m.cells a).kind.children

variable {m : Memory} {a b x : Nat} {s t : Schema} {c : Cell} {k : Kind Nat} {d : Schema}

/-! ## Reading -/

theorem Reads.of_cell {read : Nat → Schema} (hc : m.cells a = c) (hlt : a < m.next)
    (h : ∀ b ∈ c.kind.children, m.Reads b (read b)) :
    m.Reads a ⟨c.id, c.kind.map read, c.checks, c.settings⟩ := by
  subst hc
  exact .cell hlt h

theorem Reads.lt (h : m.Reads a s) : a < m.next := by
  cases h with
  | cell hlt _ => exact hlt

/-- An address stands for one schema only. -/
theorem Reads.unique (h : m.Reads a s) : ∀ {t}, m.Reads a t → s = t := by
  induction h with
  | @cell a read _ _ ih =>
      intro t ht
      cases ht with
      | @cell _ read' _ hreads' =>
          rw [Kind.map_congr fun b hb => ih b hb (hreads' b hb)]

theorem Reads.child (h : m.Reads a s) (hb : b ∈ (m.cells a).kind.children) :
    ∃ t ∈ s.kind.children, m.Reads b t := by
  cases h with
  | @cell _ read _ hreads =>
      refine ⟨read b, ?_, hreads b hb⟩
      rw [Kind.children_map]
      exact List.mem_map_of_mem hb

/-- The inner schemas of a schema in memory are in memory. -/
theorem Reads.inner (h : m.Reads a s) (ht : t ∈ s.kind.children) :
    ∃ b ∈ (m.cells a).kind.children, m.Reads b t := by
  cases h with
  | @cell _ read _ hreads =>
      rw [Kind.children_map] at ht
      obtain ⟨b, hb, rfl⟩ := List.mem_map.mp ht
      exact ⟨b, hb, hreads b hb⟩

theorem Reads.led (h : m.Reads a s) (hled : m.Leads a b) : ∃ t, m.Reads b t := by
  induction hled with
  | refl => exact ⟨s, h⟩
  | tail _ hb ih =>
      obtain ⟨t, ht⟩ := ih
      obtain ⟨u, -, hu⟩ := ht.child hb
      exact ⟨u, hu⟩

/-- What stands inside a schema in memory is in memory, where the schema leads. -/
theorem Reads.contains (h : m.Reads a s) (ht : s.Contains t) : ∃ b, m.Leads a b ∧ m.Reads b t := by
  induction ht with
  | refl => exact ⟨a, .refl, h⟩
  | tail _ hu ih =>
      obtain ⟨b, hled, hb⟩ := ih
      obtain ⟨c, hc, hr⟩ := hb.inner hu
      exact ⟨c, hled.tail hc, hr⟩

/-- Nothing in use leads to a cell that is free. -/
theorem Reads.not_leads_next (h : m.Reads a s) : ¬ m.Leads a m.next := by
  intro hled
  obtain ⟨t, ht⟩ := h.led hled
  exact Nat.lt_irrefl _ ht.lt

/-- No schema stands inside of itself. -/
theorem Reads.acyclic (h : m.Reads a s) : ∀ b ∈ (m.cells a).kind.children, ¬ m.Leads b a := by
  induction h with
  | @cell a read _ _ ih =>
      intro b hb hled
      rcases Relation.ReflTransGen.cases_head hled with rfl | ⟨c, hc, hca⟩
      · exact ih b hb b hb .refl
      · exact ih b hb c hc (hca.tail hb)

/-! ## Writing to one cell -/

theorem put_here : (m.put x c).cells x = c := if_pos rfl

theorem put_elsewhere (h : a ≠ x) : (m.put x c).cells a = m.cells a := if_neg h

theorem ne_of_not_leads (h : ¬ m.Leads a x) : a ≠ x := by
  rintro rfl
  exact h .refl

/-- An address that does not lead to a cell stands for the same schema when this is written. -/
theorem Reads.put (h : m.Reads a s) : ¬ m.Leads a x → (m.put x c).Reads a s := by
  induction h with
  | @cell a read hlt _ ih =>
      intro hnot
      have hlt' : a < (m.put x c).next := Nat.lt_of_lt_of_le hlt (Nat.le_max_left ..)
      exact .of_cell (put_elsewhere (ne_of_not_leads hnot)) hlt' fun b hb =>
        ih b hb fun hled => hnot (.head hb hled)

/-- The inner schemas of a definition are at the addresses of `k`. -/
def Holds (m : Memory) (k : Kind Nat) (d : Schema) : Prop :=
  ∃ read : Nat → Schema, (∀ b ∈ k.children, m.Reads b (read b)) ∧ k.map read = d.kind

/-- The cell of a definition whose inner schemas are at the addresses of `k`. -/
def cellOf (k : Kind Nat) (d : Schema) : Cell := ⟨d.id, k, d.checks, d.settings⟩

/-- The cell of a definition stands for it, when nothing in it leads to this cell. -/
theorem Holds.put (h : m.Holds k d) (hnot : ∀ b ∈ k.children, ¬ m.Leads b x) :
    (m.put x (cellOf k d)).Reads x d := by
  obtain ⟨id, kind, checks, settings⟩ := d
  obtain ⟨read, hreads, rfl⟩ := h
  exact .of_cell put_here (Nat.le_max_right ..) fun b hb => (hreads b hb).put (hnot b hb)

/-- A new cell of a definition stands for it. -/
theorem Holds.put_next (h : m.Holds k d) : (m.put m.next (cellOf k d)).Reads m.next d := by
  refine h.put fun b hb => ?_
  obtain ⟨read, hreads, -⟩ := h
  exact (hreads b hb).not_leads_next

/-! ## What a call may write -/

/-- A call may write new cells.  It may write the cell of its receiver too, if none of the other
addresses in use leads there. -/
inductive Writes (others : List Nat) (a : Nat) (m : Memory) : Memory → Prop where
  | none : Writes others a m m
  | new {m' : Memory} (c : Cell) : Writes others a m m' → Writes others a m (m'.put m'.next c)
  | place {m' : Memory} (c : Cell) : Writes others a m m' → (∀ b ∈ others, ¬ m'.Leads b a) →
      Writes others a m (m'.put a c)

section Writes

variable {others : List Nat} {m' : Memory}

/-- The other addresses in use stand for the same schemas as before. -/
theorem Writes.kept (h : m.Writes others a m') (hb : b ∈ others) (hs : m.Reads b s) :
    m'.Reads b s := by
  induction h with
  | none => exact hs
  | new c _ ih => exact ih.put ih.not_leads_next
  | place c _ hnot ih => exact ih.put (hnot b hb)

end Writes

/-! ## What can be written -/

/-- There is a function that reads all addresses in use. -/
theorem exists_read (m : Memory) : ∃ read : Nat → Schema, ∀ a s, m.Reads a s → read a = s := by
  have hone (a : Nat) : ∃ s, ∀ t, m.Reads a t → s = t := by
    by_cases h : ∃ s, m.Reads a s
    · obtain ⟨s, hs⟩ := h
      exact ⟨s, fun t ht => hs.unique ht⟩
    · exact ⟨⟨0, .leaf .any, .empty, {}⟩, fun t ht => absurd ⟨t, ht⟩ h⟩
  choose read hread using hone
  exact ⟨read, hread⟩

/-- A definition can be written when its inner schemas are in memory, with any addresses of
these. -/
theorem exists_holds {P : Nat → Prop} (h : ∀ t ∈ d.kind.children, ∃ b, m.Reads b t ∧ P b) :
    ∃ k, m.Holds k d ∧ ∀ b ∈ k.children, P b := by
  obtain ⟨read, hread⟩ := exists_read m
  choose! address hreads hP using h
  have hback : ∀ t ∈ d.kind.children, read (address t) = t :=
    fun t ht => hread _ _ (hreads t ht)
  refine ⟨d.kind.map address, ⟨read, fun b hb => ?_, ?_⟩, fun b hb => ?_⟩
  · rw [Kind.children_map] at hb
    obtain ⟨t, ht, rfl⟩ := List.mem_map.mp hb
    rw [hback t ht]
    exact hreads t ht
  · rw [Kind.map_map, Kind.map_congr hback]
    exact Kind.map_id _
  · rw [Kind.children_map] at hb
    obtain ⟨t, ht, rfl⟩ := List.mem_map.mp hb
    exact hP t ht

/-- A definition made of the inner schemas of the receiver and of what the other addresses in use
stand for can take the place of the receiver, when none of these leads there. -/
theorem exists_over {others : List Nat} (hs : m.Reads a s) (hsole : ∀ b ∈ others, ¬ m.Leads b a)
    (hd : ∀ t ∈ d.kind.children, t ∈ s.kind.children ∨
      ∃ b ∈ others, ∃ u, m.Reads b u ∧ u.Contains t) :
    ∃ c, (m.put a c).Reads a d := by
  have hread : ∀ t ∈ d.kind.children, ∃ b, m.Reads b t ∧ ¬ m.Leads b a := by
    intro t ht
    rcases hd t ht with hinner | ⟨b, hb, u, hu, hcontains⟩
    · obtain ⟨b, hb, hr⟩ := hs.inner hinner
      exact ⟨b, hr, hs.acyclic b hb⟩
    · obtain ⟨c, hled, hr⟩ := hu.contains hcontains
      exact ⟨c, hr, fun hca => hsole b hb (hled.trans hca)⟩
  obtain ⟨k, hholds, hk⟩ := exists_holds hread
  exact ⟨cellOf k d, hholds.put hk⟩

end Memory

end ValueSchema

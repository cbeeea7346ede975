import ValueSchema.Proofs.Sessions

/-!
# Sides and their solos

The *solo* of a side is the run of its own acts alone.  However the acts of several sides
that stay apart are scheduled, a side sees what it sees in its solo.  The tree of the
session mirrors the territory of the side in the tree of its solo, under a renumbering
that keeps the contexts that were there at the start (`Follows`).  `Together` is this
invariant for all sides at once, and `Together.run` says that every schedule keeps it and
gives each side the answers of its solo.
-/

namespace ValueSchema

namespace Session

variable {ι : Type} {t : ContextTree} {own : ι → Nat → Prop} {s solo : Session ι} {i j : ι}
  {c d : Nat} {a : ContextAct Handle} {call : Call}

/-- A session shows a side what its solo shows it, under the renumbering `ρ`. -/
structure Follows (t : ContextTree) (own : ι → Nat → Prop) (i : ι) (solo s : Session ι)
    (ρ : Nat → Nat) : Prop where
  /-- The contexts at the start are there. -/
  size_le : t.size ≤ solo.tree.size
  /-- The contexts at the start keep their numbers. -/
  given_eq : ∀ c, c < t.size → ρ c = c
  /-- The side has opened the same contexts. -/
  opened_eq : s.opened i = (solo.opened i).map ρ
  /-- The contexts of the side are the same. -/
  mirrors : ContextTree.Mirrors ρ (solo.Holds own i) (t.Common own) solo.tree s.tree

namespace Follows

variable {ρ : Nat → Nat}

/-- The counterpart of a context of the side belongs to the side. -/
theorem holds (h : Follows t own i solo s ρ) (hap : t.Apart own) (hc : solo.Holds own i c) :
    s.Holds own i (ρ c) := by
  rcases hc with hc | hc
  · rw [h.given_eq c (hap.lt_size hc)]
    exact .inl hc
  · right
    rw [h.opened_eq]
    exact List.mem_map_of_mem hc

/-- Other sides do not disturb. -/
theorem other [DecidableEq ι] (h : Follows t own j solo s ρ) (hs : Tidy t own s)
    (hap : t.Apart own) (ha : Within own i a) (call : Call) (hij : j ≠ i) :
    Follows t own j solo (s.step call i a).2 ρ := by
  refine ⟨h.size_le, h.given_eq, ?_, h.mirrors.frame ?_ ?_ ?_⟩
  · rw [← h.opened_eq]
    exact Function.update_of_ne hij ..
  · rcases hs.effect ha call with heq | ⟨c, op, -, he⟩
    · exact Nat.le_of_eq (by rw [heq])
    · have := he.size_eq
      omega
  · intro c hc
    exact hs.node_step hap ha call (h.holds hap hc) hij
  · intro c hc
    obtain ⟨b, hb⟩ := hs.common_step ha call hc
    rw [hb]

/-- Handles name counterparts. -/
theorem find_eq (h : Follows t own i solo s ρ) (hap : t.Apart own)
    (hnew : ρ solo.tree.size = s.tree.size) (ha : Within own i a) {k : Handle}
    (hk : k ∈ a.named) : s.find i k = ρ (solo.find i k) := by
  cases k with
  | given c => exact (h.given_eq c (hap.lt_size (ha c hk))).symm
  | opened k =>
      rw [find, find, h.opened_eq, List.getElem?_map]
      cases (solo.opened i)[k]? with
      | none => exact hnew.symm
      | some c => rfl

/-- The renumbering can give the next context of the solo the next number. -/
theorem update (h : Follows t own i solo s ρ) (wt : solo.tree.WellLinked) :
    Follows t own i solo s (Function.update ρ solo.tree.size s.tree.size) := by
  refine ⟨h.size_le, fun c hc => ?_, ?_, h.mirrors.update wt _⟩
  · have hle := h.size_le
    rw [Function.update_of_ne (by omega), h.given_eq c hc]
  · rw [h.opened_eq]
    refine List.map_congr_left fun c hc => ?_
    exact (Function.update_of_ne (Nat.ne_of_lt (h.mirrors.territory.own_lt (.inr hc))) ..).symm

variable [DecidableEq ι]

/-- The side gets the answer that it gets in its solo, and the two go on together. -/
theorem step (h : Follows t own i solo s ρ) (hap : t.Apart own) (wt : solo.tree.WellLinked)
    (hs : Tidy t own s) (ha : Within own i a) (call : Call) :
    (s.step call i a).1 = (solo.step call i a).1 ∧
      (∃ ρ', Follows t own i (solo.step call i a).2 (s.step call i a).2 ρ') ∧
      ∀ c, t.Common own c → ((solo.tree.node c).dirty = true → (s.tree.node c).dirty = true) →
        (((s.step call i a).2.tree.node c).dirty = true ↔
          (s.tree.node c).dirty = true ∨ ((solo.step call i a).2.tree.node c).dirty = true) := by
  -- the next numbers are counterparts, so that both trees may open a context
  obtain ⟨σ, h, hnew⟩ : ∃ σ, Follows t own i solo s σ ∧ σ solo.tree.size = s.tree.size :=
    ⟨_, h.update wt, Function.update_self ..⟩
  have hact : a.map (s.find i) = (a.map (solo.find i)).map σ := by
    rw [ContextAct.map_map]
    exact ContextAct.map_congr fun k hk => h.find_eq hap hnew ha hk
  have hnamed : ∀ c ∈ (a.map (solo.find i)).named,
      solo.Holds own i c ∨ c = solo.tree.size := by
    intro c hc
    rw [ContextAct.named_map, List.mem_map] at hc
    obtain ⟨k, hk, rfl⟩ := hc
    exact find_holds ha hk
  have hboth := h.mirrors.respond wt hs.linked hnew call hnamed
  rw [← hact] at hboth
  have hal : ContextTree.Alongside σ (solo.Holds own i) solo.tree s.tree
      (solo.step call i a).2.tree (s.step call i a).2.tree := hboth.2
  refine ⟨hboth.1.symm, ⟨σ, ?_⟩, fun c hc => h.mirrors.dirty_iff wt hs.linked hal hc⟩
  have hopened : ∀ new, grown solo.tree (solo.step call i a).2.tree = new →
      grown s.tree (s.step call i a).2.tree = new.map σ →
      (s.step call i a).2.opened i = ((solo.step call i a).2.opened i).map σ := by
    intro new ht hu
    rw [opened_step_self, opened_step_self, ht, hu, h.opened_eq, List.map_append]
  have hle := h.size_le
  rcases h.mirrors.alongside wt hs.linked hnew hal with ⟨ht, hu, m⟩ | ⟨ht, hu, m⟩
  · refine ⟨by omega, h.given_eq, ?_, m.congr fun c => ?_⟩
    · exact hopened [] (if_neg (by omega)) (if_neg (by omega))
    · rw [holds_step]
      refine or_iff_left ?_
      omega
  · refine ⟨by omega, h.given_eq, ?_, m.congr fun c => ?_⟩
    · refine hopened [solo.tree.size] (if_pos (by omega)) ?_
      rw [List.map_singleton, hnew]
      exact if_pos (by omega)
    · rw [holds_step]
      exact or_congr_right ⟨fun h => h.2.1, fun h => ⟨rfl, h, by omega⟩⟩

end Follows

/-! ## All sides -/

/-- A session shows every side what its solo shows it.  The marks of common contexts are
those that the solos have left together. -/
structure Together (t : ContextTree) (own : ι → Nat → Prop) (solo : ι → Session ι)
    (s : Session ι) : Prop where
  /-- The sides have stayed apart. -/
  tidy : Tidy t own s
  /-- The links of the solos. -/
  linked : ∀ i, (solo i).tree.WellLinked
  /-- Every side is shown its solo. -/
  follows : ∀ i, ∃ ρ, Follows t own i (solo i) s ρ
  /-- The marks of common contexts. -/
  dirty_iff : ∀ {c}, t.Common own c → ((s.tree.node c).dirty = true ↔
    (t.node c).dirty = true ∨ ∃ i, ((solo i).tree.node c).dirty = true)

theorem Together.of_apart (h : t.Apart own) : Together t own (fun _ => start t) (start t) := by
  refine ⟨.of_apart h, fun _ => h.linked, fun i => ⟨id, ?_⟩, fun {c} hc => ?_⟩
  · have hmirrors : ContextTree.Mirrors id (own i) (t.Common own) t t :=
      { territory := h.territory i
        node_eq := fun _ => (ContextNode.renumber_eq_self (fun _ _ => rfl) fun _ _ => rfl).symm
        image_lt := h.lt_size
        shared_eq := fun _ => rfl
        shared_lt := And.left
        shared_parent := fun _ => rfl
        injective := fun _ _ => id }
    exact ⟨Nat.le_refl _, fun _ _ => rfl, rfl, hmirrors.congr fun c => or_iff_left nofun⟩
  · constructor
    · exact .inl
    · rintro (h | ⟨-, h⟩)
      · exact h
      · exact h

namespace Together

variable [DecidableEq ι] {solo : ι → Session ι}

/-- One act of one side. -/
theorem step (h : Together t own solo s) (hap : t.Apart own) (ha : Within own i a) (call : Call) :
    (s.step call i a).1 = ((solo i).step call i a).1 ∧
      Together t own (Function.update solo i ((solo i).step call i a).2) (s.step call i a).2 := by
  obtain ⟨ρ, hi⟩ := h.follows i
  obtain ⟨hans, hfollow, hdirty⟩ := hi.step hap (h.linked i) h.tidy ha call
  refine ⟨hans, h.tidy.step hap ha call, fun j => ?_, fun j => ?_, fun {c} hc => ?_⟩
  · by_cases hj : j = i
    · subst hj
      rw [Function.update_self]
      exact (h.linked j).respond call _
    · rw [Function.update_of_ne hj]
      exact h.linked j
  · by_cases hj : j = i
    · subst hj
      rw [Function.update_self]
      exact hfollow
    · rw [Function.update_of_ne hj]
      obtain ⟨ρ, hj'⟩ := h.follows j
      exact ⟨ρ, hj'.other h.tidy hap ha call hj⟩
  · have hsolo : ((solo i).tree.node c).dirty = true → (s.tree.node c).dirty = true := fun hd =>
      (h.dirty_iff hc).mpr (.inr ⟨i, hd⟩)
    have hkept : ((solo i).tree.node c).dirty = true →
        (((solo i).step call i a).2.tree.node c).dirty = true :=
      ((h.linked i).marks_of_effect ((h.linked i).effect_respond call _) c).2
    rw [hdirty c hc hsolo, h.dirty_iff hc]
    constructor
    · rintro ((hd | ⟨j, hd⟩) | hd)
      · exact .inl hd
      · by_cases hj : j = i
        · subst hj
          exact .inr ⟨j, by rw [Function.update_self]; exact hkept hd⟩
        · exact .inr ⟨j, by rwa [Function.update_of_ne hj]⟩
      · exact .inr ⟨i, by rwa [Function.update_self]⟩
    · rintro (hd | ⟨j, hd⟩)
      · exact .inl (.inl hd)
      · by_cases hj : j = i
        · subst hj
          rw [Function.update_self] at hd
          exact .inr hd
        · rw [Function.update_of_ne hj] at hd
          exact .inl (.inr ⟨j, hd⟩)

/-- Every schedule gives each side the answers of its solo, and shows it what its solo
shows it. -/
theorem run (h : Together t own solo s) (hap : t.Apart own) (call : Call)
    (w : List (ι × ContextAct Handle)) (hw : ∀ x ∈ w, Within own x.1 x.2) :
    (∀ i, (s.run call w).1.filter (·.1 = i) =
      ((solo i).run call (w.filter (·.1 = i))).1) ∧
    Together t own (fun i => ((solo i).run call (w.filter (·.1 = i))).2) (s.run call w).2 := by
  induction w generalizing s solo with
  | nil => exact ⟨fun _ => rfl, h⟩
  | cons x w ih =>
      obtain ⟨i, a⟩ := x
      obtain ⟨hans, hstep⟩ := h.step hap (hw _ (List.mem_cons_self ..)) call
      obtain ⟨hanswers, hrun⟩ := ih hstep fun x hx => hw x (List.mem_cons_of_mem _ hx)
      have hsolo : ∀ j, (solo j).run call (((i, a) :: w).filter (·.1 = j)) =
          ((if i = j then [(i, ((solo i).step call i a).1)] else []) ++
            ((Function.update solo i ((solo i).step call i a).2 j).run call
              (w.filter (·.1 = j))).1,
            ((Function.update solo i ((solo i).step call i a).2 j).run call
              (w.filter (·.1 = j))).2) := by
        intro j
        by_cases hj : i = j
        · subst hj
          simp [run]
        · simp [hj, Function.update_of_ne (Ne.symm hj)]
      constructor
      · intro j
        rw [hsolo, ← hanswers j, run, ← hans]
        by_cases hj : i = j
        · simp [hj]
        · simp [hj]
      · simp only [hsolo]
        exact hrun

end Together

end Session

end ValueSchema

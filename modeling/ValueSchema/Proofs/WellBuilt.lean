import ValueSchema.Proofs.BuilderCalls
import ValueSchema.Proofs.Modes

/-!
# Well-built schemas

Builders see to it that the checks of a node are some that its kind supports, and that the keys
of an object are distinct.  `Schema.apply_wellBuilt` is that every builder keeps this, at the
node and at everything that is found from it, and `Schema.applyAll_wellBuilt` that a run of
builders does.
-/

namespace ValueSchema

/-- What builders see to at a node. -/
structure Schema.WellBuilt (s : Schema) : Prop where
  supported : ∀ e ∈ s.checks.entries, s.kind.supports e.kind = true
  distinct : ∀ shape unknown, s.kind = .object shape unknown → shape.keys.Nodup

theorem Schema.WellBuilt.checks_eq_nil {s : Schema} (h : s.WellBuilt)
    (hkind : ∀ k, s.kind.supports k = false) : s.checks.entries = [] := by
  refine List.eq_nil_iff_forall_not_mem.mpr fun e he => ?_
  cases (h.supported e he).symm.trans (hkind e.kind)

/-! ## Checks -/

namespace Checks

theorem mem_replaceFirst {e d : CheckEntry} :
    ∀ {es : List CheckEntry}, d ∈ replaceFirst e es → d = e ∨ d ∈ es
  | [], h => nomatch h
  | c :: cs, h => by
      rw [replaceFirst] at h
      split at h
      next =>
          rcases List.mem_cons.mp h with rfl | hm
          · exact .inl rfl
          · exact .inr (List.mem_cons_of_mem _ hm)
      next =>
          rcases List.mem_cons.mp h with rfl | hm
          · exact .inr (List.mem_cons_self ..)
          · exact (mem_replaceFirst hm).imp_right (List.mem_cons_of_mem _)

theorem mem_add {cs : Checks} {e d : CheckEntry} {beside : Bool}
    (h : d ∈ (cs.add e beside).entries) : d = e ∨ d ∈ cs.entries := by
  unfold add at h
  split at h
  next => exact mem_replaceFirst h
  next =>
      rcases List.mem_append.mp h with hm | hm
      · exact .inr hm
      · exact .inl (List.mem_singleton.mp hm)

/-- A message changes no kind. -/
theorem kind_of_mem_setLastMessage {cs : Checks} {message : String} {d : CheckEntry}
    (h : d ∈ (cs.setLastMessage message).entries) : ∃ e ∈ cs.entries, e.kind = d.kind := by
  unfold setLastMessage at h
  split at h
  next e he =>
      rcases List.mem_append.mp h with hm | hm
      · exact ⟨d, (List.dropLast_sublist _).subset hm, rfl⟩
      · rw [List.mem_singleton.mp hm]
        exact ⟨e, List.mem_of_getLast? he, rfl⟩
  next => exact ⟨d, h, rfl⟩

end Checks

/-! ## Builders -/

namespace Schema

variable {arena : Option Arena} {s : Schema}

/-- Well-built at the node and at everything that is found from it. -/
def WellBuiltEverywhere (arena : Option Arena) (s : Schema) : Prop := s.Everywhere arena WellBuilt

theorem WellBuiltEverywhere.child (h : s.WellBuiltEverywhere arena) {t : Schema}
    (ht : t ∈ s.kind.children) : t.WellBuiltEverywhere arena :=
  h.inside (.inl ht)

/-- A registry stays supported. -/
theorem supports_of_mem_recheck {kind : Kind Schema} {cs : Checks} {e : Edit}
    (h : ∀ c ∈ cs.entries, kind.supports c.kind = true) :
    ∀ c ∈ (e.recheck kind cs).entries, kind.supports c.kind = true := by
  intro c hc
  unfold Edit.recheck at hc
  split at hc
  · split at hc
    next hsupports =>
        rcases Checks.mem_add hc with rfl | hm
        · exact hsupports
        · exact h c hm
    next => exact h c hc
  · exact h c (List.mem_filter.mp hc).1
  · obtain ⟨d, hd, hkind⟩ := Checks.kind_of_mem_setLastMessage hc
    exact hkind ▸ h d hd
  · exact h c hc

/-- A new node around others is well-built when these are. -/
theorem IsAround.wellBuilt {d : Schema} (h : d.IsAround)
    (hchildren : ∀ t ∈ d.kind.children, t.WellBuiltEverywhere arena) :
    d.WellBuiltEverywhere arena := by
  refine .of_children h.not_lazy ⟨?_, fun shape unknown hk => absurd hk (h.not_object _ _)⟩ hchildren
  rw [h.checks]
  exact nofun

/-- A copy of a well-built node is well-built when its inner schemas are. -/
theorem IsCopy.wellBuilt {d : Schema} {e : Edit} (h : d.IsCopy s e)
    (hs : s.WellBuiltEverywhere arena)
    (hchildren : ∀ t ∈ d.kind.children, t.WellBuiltEverywhere arena) :
    d.WellBuiltEverywhere arena := by
  refine .of_inner ⟨?_, h.distinctKeys hs.here.distinct⟩ fun t ht => ?_
  · rw [h.checks, h.sameForm.supports_eq]
    exact supports_of_mem_recheck hs.here.supported
  · rcases ht with ht | ⟨id, hk, ht⟩
    · exact hchildren t ht
    · -- A reference stays the one that it was.
      rcases h.sameForm with hsame | ⟨hobject, -⟩ | ⟨htuple, -⟩
      · exact hs.inside (.inr ⟨id, hsame ▸ hk, ht⟩)
      · rw [hk] at hobject
        cases hobject
      · rw [hk] at htuple
        cases htuple

/-- A builder keeps schemas well-built. -/
theorem apply_wellBuilt (hs : s.WellBuiltEverywhere arena) (e : Edit)
    (he : ∀ t ∈ e.schemas, t.WellBuiltEverywhere arena) :
    (s.apply e).Makes (WellBuiltEverywhere arena) := by
  intro n
  obtain ⟨made, hmade, -, hgives⟩ := apply_does hs (fun t => hs.child) e
    (fun t ht => ⟨he t ht, fun u => (he t ht).child⟩) n
  have hall : ∀ t, knownWith (WellBuiltEverywhere arena) made t → t.WellBuiltEverywhere arena :=
    hmade.forall (fun t ht => ht) fun d hd hchildren =>
      hd.elim (·.wellBuilt hchildren) (·.wellBuilt hs hchildren)
  rcases hgives with ⟨ht, -⟩ | ⟨hhead, -⟩
  · rw [ht]
    exact hs
  · rw [List.append_nil] at hhead
    exact hall _ (.inr (List.mem_of_mem_head? hhead))

/-- Builders keep schemas well-built, however many are called one after another. -/
theorem applyAll_wellBuilt (es : List Edit)
    (he : ∀ e ∈ es, ∀ t ∈ e.schemas, t.WellBuiltEverywhere arena) :
    ∀ s : Schema, s.WellBuiltEverywhere arena →
      (s.applyAll es).Makes (WellBuiltEverywhere arena) := by
  induction es with
  | nil => exact fun s hs => Build.makes_pure hs
  | cons e es ih =>
      intro s hs
      obtain ⟨hhead, htail⟩ := List.forall_mem_cons.mp he
      exact Build.makes_bind (apply_wellBuilt hs e hhead) (ih htail)

end Schema

end ValueSchema

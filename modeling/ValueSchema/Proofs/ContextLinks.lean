import ValueSchema.Proofs.ContextNodes

/-!
# How contexts hang together

`ContextTree.WellLinked` is the invariant of context trees.  The links upwards and
downwards are inverse to each other, a context is opened after the one above it, the
children stand in the order in which they were opened, and what is above a marked context
is dirty.  Every change of a tree keeps it: `WellLinked.openAt`, `WellLinked.markedAt`
and `WellLinked.discard`.

A well-linked tree can be climbed and descended (`WellLinked.climb`,
`WellLinked.descend`), so that the report of a context is known from its node and the
reports of its children (`WellLinked.report_eq`).
-/

namespace ValueSchema

namespace Report

theorem allValid_eq_all (rs : List Report) : allValid rs = rs.all isValid := by
  induction rs with
  | nil => rfl
  | cons r rs ih => rw [allValid, ih, List.all_cons]

theorem issuesOfAll_eq_flatMap (rs : List Report) : issuesOfAll rs = rs.flatMap allIssues := by
  induction rs with
  | nil => rfl
  | cons r rs ih => rw [issuesOfAll, ih, List.flatMap_cons]

end Report

namespace ContextTree

variable {t u : ContextTree} {c d e p : Nat}

/-- The links of a tree agree with each other and with its marks. -/
structure WellLinked (t : ContextTree) : Prop where
  /-- The context above was opened before. -/
  parent_lt : ∀ {c p}, (t.node c).parent = some p → p < c
  /-- The links downwards are inverse to those upwards. -/
  mem_children : ∀ {c d}, d ∈ (t.node c).children ↔ (t.node d).parent = some c
  /-- Children stand in the order in which they were opened. -/
  increasing : ∀ c, (t.node c).children.Pairwise (· < ·)
  /-- A mark is known to the context above. -/
  dirty_of_marked : ∀ {c p}, (t.node c).parent = some p → (t.node c).marked = true →
    (t.node p).dirty = true

/-- The tree with nothing but the root. -/
theorem wellLinked_init : init.WellLinked := by
  have hnode : ∀ c, init.node c = { parent := none, path := .root } := by
    intro c
    cases c <;> rfl
  constructor
  · intro c p h
    rw [hnode] at h
    cases h
  · intro c d
    rw [hnode, hnode]
    simp
  · intro c
    rw [hnode]
    exact .nil
  · intro c p h
    rw [hnode] at h
    cases h

namespace WellLinked

theorem mem_children_lt (w : t.WellLinked) (h : d ∈ (t.node c).children) : c < d :=
  w.parent_lt (w.mem_children.mp h)

theorem mem_children_lt_size (w : t.WellLinked) (h : d ∈ (t.node c).children) : d < t.size :=
  lt_size_of_parent (w.mem_children.mp h)

/-- Upwards along the links: what holds of a context if it holds of the one above, holds
of all. -/
theorem climb {motive : Nat → Prop} (w : t.WellLinked)
    (top : ∀ c, (t.node c).parent = none → motive c)
    (up : ∀ c p, (t.node c).parent = some p → motive p → motive c) (c : Nat) : motive c := by
  induction c using Nat.strongRecOn with
  | _ c ih =>
      cases h : (t.node c).parent with
      | none => exact top c h
      | some p => exact up c p h (ih p (w.parent_lt h))

/-- Downwards along the links: what holds of a context if it holds of its children, holds
of all. -/
theorem descend {motive : Nat → Prop} (w : t.WellLinked)
    (down : ∀ c, (∀ d ∈ (t.node c).children, motive d) → motive c) (c : Nat) : motive c := by
  -- the distance to the last context falls
  induction h : t.size - c using Nat.strongRecOn generalizing c with
  | _ n ih =>
      refine down c fun d hd => ih (t.size - d) ?_ d rfl
      have := w.mem_children_lt hd
      have := w.mem_children_lt_size hd
      omega

theorem above_eq (w : t.WellLinked) (h : (t.node c).parent = some p) :
    t.above c = p :: t.above p :=
  above_of_parent h (w.parent_lt h)

theorem atOrBelow_of_parent (w : t.WellLinked) (h : (t.node d).parent = some p) :
    t.AtOrBelow d c ↔ d = c ∨ t.AtOrBelow p c := by
  unfold AtOrBelow
  rw [w.above_eq h, List.mem_cons, eq_comm (a := c)]

theorem atOrBelow_of_parent_none (h : (t.node d).parent = none) : t.AtOrBelow d c ↔ d = c := by
  unfold AtOrBelow
  simp [above_of_parent_none h]

theorem atOrBelow_trans (w : t.WellLinked) (hd : t.AtOrBelow d c) (he : t.AtOrBelow e d) :
    t.AtOrBelow e c := by
  revert he
  refine w.climb (motive := fun e => t.AtOrBelow e d → t.AtOrBelow e c) ?_ ?_ e
  · intro e h he
    rwa [(atOrBelow_of_parent_none h).mp he]
  · intro e p h ih he
    rcases (w.atOrBelow_of_parent h).mp he with rfl | he
    · exact hd
    · exact (w.atOrBelow_of_parent h).mpr (.inr (ih he))

/-- Downwards, the context is reached through one of the children. -/
theorem atOrBelow_iff_child (w : t.WellLinked) :
    t.AtOrBelow d c ↔ d = c ∨ ∃ x ∈ (t.node c).children, t.AtOrBelow d x := by
  constructor
  · refine w.climb (motive := fun d => t.AtOrBelow d c →
      d = c ∨ ∃ x ∈ (t.node c).children, t.AtOrBelow d x) ?_ ?_ d
    · intro d h hd
      exact .inl ((atOrBelow_of_parent_none h).mp hd)
    · intro d p h ih hd
      rcases (w.atOrBelow_of_parent h).mp hd with hd | hd
      · exact .inl hd
      · rcases ih hd with rfl | ⟨x, hx, hpx⟩
        · exact .inr ⟨d, w.mem_children.mpr h, t.atOrBelow_self d⟩
        · exact .inr ⟨x, hx, (w.atOrBelow_of_parent h).mpr (.inr hpx)⟩
  · rintro (rfl | ⟨x, hx, hd⟩)
    · exact t.atOrBelow_self d
    · have hx : t.AtOrBelow x c :=
        (w.atOrBelow_of_parent (w.mem_children.mp hx)).mpr (.inr (t.atOrBelow_self c))
      exact w.atOrBelow_trans hx hd

/-- Of two contexts above a third, one is above the other. -/
theorem atOrBelow_total (w : t.WellLinked) (hc : t.AtOrBelow e c) (hd : t.AtOrBelow e d) :
    t.AtOrBelow c d ∨ t.AtOrBelow d c := by
  revert hc hd
  refine w.climb (motive := fun e => t.AtOrBelow e c → t.AtOrBelow e d →
    t.AtOrBelow c d ∨ t.AtOrBelow d c) ?_ ?_ e
  · intro e h hc hd
    rw [atOrBelow_of_parent_none h] at hc hd
    exact .inl (.inl (hc.symm.trans hd))
  · intro e p h ih hc hd
    rcases (w.atOrBelow_of_parent h).mp hc with rfl | hpc
    · exact .inl hd
    · rcases (w.atOrBelow_of_parent h).mp hd with rfl | hpd
      · exact .inr hc
      · exact ih hpc hpd

/-- A mark is known to every context above. -/
theorem dirty_of_mem_above (w : t.WellLinked) (h : (t.node d).marked = true)
    (hc : c ∈ t.above d) : (t.node c).dirty = true := by
  revert h hc
  refine w.climb (motive := fun d => (t.node d).marked = true → c ∈ t.above d →
    (t.node c).dirty = true) ?_ ?_ d
  · intro d hd _ hc
    rw [above_of_parent_none hd] at hc
    cases hc
  · intro d p hd ih h hc
    have hp : (t.node p).dirty = true := w.dirty_of_marked hd h
    rw [w.above_eq hd, List.mem_cons] at hc
    rcases hc with rfl | hc
    · exact hp
    · exact ih (by rw [ContextNode.marked, hp, Bool.or_true]) hc

end WellLinked

/-! ## Marking a context -/

/-- What marking a context does to a tree: the context is invalid, the contexts above it
are dirty, and the raised issues stand after its other issues. -/
structure MarkedAt (t : ContextTree) (c : Nat) (raised : List Issue) (u : ContextTree) : Prop where
  /-- The context exists. -/
  lt_size : c < t.size
  /-- No context is opened. -/
  size_eq : u.size = t.size
  /-- The nodes. -/
  node_eq : ∀ d, u.node d =
    { t.node d with
      invalid := (t.node d).invalid || decide (d = c)
      dirty := (t.node d).dirty || decide (d ∈ t.above c)
      issues := (t.node d).issues ++ if d = c then raised else [] }

namespace WellLinked

/-- What marks the node of a context and then walks upwards, marks the context. -/
theorem markedAt_of_update (w : t.WellLinked) (hc : c < t.size) (raised : List Issue)
    (hsize : u.size = t.size)
    (hu : ∀ d, u.node d = { t.node d with
      invalid := (t.node d).invalid || decide (d = c)
      issues := (t.node d).issues ++ if d = c then raised else [] }) :
    t.MarkedAt c raised (u.markAbove c) := by
  have habove : ∀ d, u.above d = t.above d := fun d => above_congr fun x _ => by rw [hu]
  refine ⟨hc, by rw [size_markAbove, hsize], fun d => ?_⟩
  rw [node_markAbove ?_ ?_ d, habove, hu]
  · intro x p h
    rw [hu] at h
    exact w.parent_lt h
  · intro x _ hx y hy
    rw [habove] at hy
    rw [hu] at hx ⊢
    have hm : (t.node x).marked = true := by rw [ContextNode.marked, hx, Bool.or_true]
    exact w.dirty_of_mem_above hm hy

theorem markedAt_setInvalid (w : t.WellLinked) (hc : c < t.size) :
    t.MarkedAt c [] (t.setInvalid c) := by
  refine w.markedAt_of_update hc [] (size_update ..) fun d => ?_
  rw [node_update hc]
  by_cases hd : d = c
  · simp [hd]
  · simp [hd]

theorem markedAt_raise (w : t.WellLinked) (hc : c < t.size) (i : Issue) :
    t.MarkedAt c [i] (t.raise c i) := by
  refine w.markedAt_of_update hc [i] (by rw [size_update, size_update]) fun d => ?_
  rw [node_update (by rwa [size_update]), node_update hc]
  by_cases hd : d = c
  · simp [hd]
  · simp [hd]

end WellLinked

namespace MarkedAt

variable {raised : List Issue}

theorem parent_eq (m : t.MarkedAt c raised u) (d : Nat) :
    (u.node d).parent = (t.node d).parent := by
  rw [m.node_eq]

theorem children_eq (m : t.MarkedAt c raised u) (d : Nat) :
    (u.node d).children = (t.node d).children := by
  rw [m.node_eq]

theorem above_eq (m : t.MarkedAt c raised u) (d : Nat) : u.above d = t.above d :=
  above_congr fun x _ => m.parent_eq x

theorem dirty_iff (m : t.MarkedAt c raised u) (d : Nat) :
    (u.node d).dirty = true ↔ (t.node d).dirty = true ∨ d ∈ t.above c := by
  simp [m.node_eq]

theorem invalid_iff (m : t.MarkedAt c raised u) (d : Nat) :
    (u.node d).invalid = true ↔ (t.node d).invalid = true ∨ d = c := by
  simp [m.node_eq]

theorem marked_iff (m : t.MarkedAt c raised u) (d : Nat) :
    (u.node d).marked = true ↔ (t.node d).marked = true ∨ t.AtOrBelow c d := by
  rw [ContextNode.marked, ContextNode.marked, Bool.or_eq_true, Bool.or_eq_true, m.invalid_iff,
    m.dirty_iff, AtOrBelow, eq_comm (a := c)]
  exact or_or_or_comm

end MarkedAt

/-! ## The invariant is kept -/

namespace WellLinked

/-- Opening a context, below one that exists. -/
theorem openAt (w : t.WellLinked) {parent : Option Nat} (h : ∀ p, parent = some p → p < t.size)
    (path : Path) : (t.openAt parent path).2.WellLinked := by
  have hfresh : t.node t.size = { parent := none, path := .root } := node_of_size_le (Nat.le_refl _)
  constructor
  · intro c p hp
    rw [parent_openAt h] at hp
    split at hp
    · next hc => exact hc ▸ h p hp
    · exact w.parent_lt hp
  · intro c d
    rw [parent_openAt h, children_openAt h, List.mem_append, w.mem_children]
    by_cases hd : d = t.size
    · subst hd
      by_cases hc : parent = some c <;> simp [hfresh, hc]
    · by_cases hc : parent = some c <;> simp [hd, hc]
  · intro c
    rw [children_openAt h]
    refine List.pairwise_append.mpr ⟨w.increasing c, ?_, fun a ha b hb => ?_⟩
    · split
      · exact List.pairwise_singleton ..
      · exact .nil
    · split at hb
      · rw [List.mem_singleton] at hb
        exact hb ▸ w.mem_children_lt_size ha
      · cases hb
  · intro c p hp hm
    have hc := marks_openAt h path c
    have hd := (marks_openAt h path p).2
    rw [parent_openAt h] at hp
    rw [ContextNode.marked, hc.1, hc.2] at hm
    rw [hd]
    split at hp
    · next hc =>
        rw [hc, hfresh] at hm
        cases hm
    · exact w.dirty_of_marked hp hm

/-- Marking a context. -/
theorem markedAt (w : t.WellLinked) {raised : List Issue} (m : t.MarkedAt c raised u) :
    u.WellLinked := by
  constructor
  · intro d p h
    exact w.parent_lt (m.parent_eq d ▸ h)
  · intro d e
    rw [m.parent_eq, m.children_eq]
    exact w.mem_children
  · intro d
    rw [m.children_eq]
    exact w.increasing d
  · intro d p h hm
    rw [m.parent_eq] at h
    rw [m.dirty_iff]
    rcases (m.marked_iff d).mp hm with hm | hm
    · exact .inl (w.dirty_of_marked h hm)
    · -- `p` is above `d`, which is `c` or above it
      have hp : p ∈ t.above d := by
        rw [w.above_eq h]
        exact List.mem_cons_self ..
      have hlt := w.parent_lt h
      have hle := hm.le
      exact .inr ((w.atOrBelow_trans (.inr hp) hm).resolve_left (by omega))

section

variable (w : t.WellLinked) (h : d ∈ (t.node c).children)

include w h

theorem node_discard (x : Nat) :
    (t.discard c d).node x =
      if x = d then { t.node x with parent := none }
      else if x = c then
        { t.node x with children := (t.node x).children.filter (· ≠ d) }
      else t.node x :=
  ContextTree.node_discard (lt_size_of_mem_children h) (w.mem_children_lt_size h)
    (Nat.ne_of_gt (w.mem_children_lt h)) x

theorem parent_discard (x : Nat) :
    ((t.discard c d).node x).parent = if x = d then none else (t.node x).parent := by
  rw [w.node_discard h]
  split
  · rfl
  · split <;> rfl

/-- The marks that a discarded context has left above it stay. -/
theorem marks_discard (x : Nat) :
    ((t.discard c d).node x).invalid = (t.node x).invalid ∧
      ((t.discard c d).node x).dirty = (t.node x).dirty := by
  rw [w.node_discard h]
  split
  · exact ⟨rfl, rfl⟩
  · split <;> exact ⟨rfl, rfl⟩

/-- No other context has the child, so it is taken out of every list of children. -/
theorem children_discard (x : Nat) :
    ((t.discard c d).node x).children = (t.node x).children.filter (· ≠ d) := by
  have hcd : d ≠ c := Nat.ne_of_gt (w.mem_children_lt h)
  have hother : x ≠ c → (t.node x).children = (t.node x).children.filter (· ≠ d) := by
    intro hx
    have hkeep : ∀ y ∈ (t.node x).children, y ≠ d := by
      rintro y hy rfl
      have hxy := w.mem_children.mp hy
      rw [w.mem_children.mp h] at hxy
      exact hx (Option.some.inj hxy).symm
    exact (List.filter_eq_self.mpr fun y hy => decide_eq_true (hkeep y hy)).symm
  rw [w.node_discard h]
  split
  · next hx => exact hother (hx ▸ hcd)
  · split
    · rfl
    · next hx => exact hother hx

end

/-- Discarding a child. -/
theorem discard (w : t.WellLinked) (h : d ∈ (t.node c).children) :
    (t.discard c d).WellLinked := by
  constructor
  · intro x p hp
    rw [w.parent_discard h] at hp
    split at hp
    · cases hp
    · exact w.parent_lt hp
  · intro x y
    rw [w.parent_discard h, w.children_discard h, List.mem_filter, w.mem_children]
    by_cases hy : y = d <;> simp [hy]
  · intro x
    rw [w.children_discard h]
    exact (w.increasing x).filter _
  · intro x p hp hm
    have hx := w.marks_discard h x
    rw [w.parent_discard h] at hp
    rw [ContextNode.marked, hx.1, hx.2] at hm
    rw [(w.marks_discard h p).2]
    split at hp
    · cases hp
    · exact w.dirty_of_marked hp hm

end WellLinked

/-! ## Reports -/

theorem reportWithin_zero (t : ContextTree) (c : Nat) :
    t.reportWithin 0 c =
      { path := (t.node c).path, invalid := (t.node c).invalid, dirty := (t.node c).dirty,
        issues := (t.node c).issues } := by
  unfold reportWithin node
  cases t.nodes[c]? <;> rfl

theorem reportWithin_succ (t : ContextTree) (depth c : Nat) :
    t.reportWithin (depth + 1) c =
      { path := (t.node c).path, invalid := (t.node c).invalid, dirty := (t.node c).dirty,
        issues := (t.node c).issues,
        children := (t.node c).children.map (t.reportWithin depth) } := by
  rw [reportWithin]
  unfold node
  cases t.nodes[c]? <;> rfl

/-- By the marks, a context is invalid if it carries one. -/
theorem isInvalid_eq (t : ContextTree) (c : Nat) : t.isInvalid c = (t.node c).marked := by
  unfold isInvalid report Report.isInvalid ContextNode.marked
  cases t.nodes.length with
  | zero => rw [reportWithin_zero]
  | succ n => rw [reportWithin_succ]

namespace WellLinked

/-- A report does not depend on the depth, once it is as large as the tree. -/
theorem reportWithin_eq (w : t.WellLinked) {n m : Nat} (hn : t.size ≤ c + n)
    (hm : t.size ≤ c + m) : t.reportWithin n c = t.reportWithin m c := by
  have hempty : t.size ≤ c → (t.node c).children = [] := fun h => by rw [node_of_size_le h]
  induction n generalizing c m with
  | zero =>
      cases m with
      | zero => rfl
      | succ m => rw [reportWithin_zero, reportWithin_succ, hempty hn]; rfl
  | succ n ih =>
      cases m with
      | zero => rw [reportWithin_zero, reportWithin_succ, hempty hm]; rfl
      | succ m =>
          rw [reportWithin_succ, reportWithin_succ]
          congr 1
          refine List.map_congr_left fun d hd => ?_
          have hcd := w.mem_children_lt hd
          refine ih (by omega) (by omega) fun h => by rw [node_of_size_le h]

/-- The report of a context is made of its node and the reports of its children. -/
theorem report_eq (w : t.WellLinked) (c : Nat) :
    t.report c =
      { path := (t.node c).path, invalid := (t.node c).invalid, dirty := (t.node c).dirty,
        issues := (t.node c).issues, children := (t.node c).children.map t.report } := by
  have h : t.report c = t.reportWithin (t.size + 1) c :=
    w.reportWithin_eq (Nat.le_add_left ..) (by omega)
  rw [h, reportWithin_succ]
  rfl

/-- The validity of a context, recomputed. -/
theorem isValid_eq (w : t.WellLinked) (c : Nat) :
    t.isValid c = (!(t.node c).invalid && (t.node c).children.all t.isValid) := by
  rw [isValid, w.report_eq, Report.isValid, Report.allValid_eq_all, List.all_map]
  rfl

/-- A context lists its own issues, then those of its children. -/
theorem issues_eq (w : t.WellLinked) (c : Nat) :
    t.issues c = (t.node c).issues ++ (t.node c).children.flatMap t.issues := by
  rw [issues, w.report_eq, Report.allIssues, Report.issuesOfAll_eq_flatMap, List.flatMap_map]
  rfl

end WellLinked

end ContextTree

end ValueSchema

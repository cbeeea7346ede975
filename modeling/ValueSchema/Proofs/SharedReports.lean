import ValueSchema.Proofs.ContextValidity
import ValueSchema.Proofs.ReportGrowth

/-!
# Reports in a shared tree

A run keeps the report of its place for itself and attaches to it what ran on its own.  The steps
of a call may as well share a `ContextTree`, where a report is only a view.  Both come to
the same: whatever a run records at a place, acts on a context of that place record in a tree
(`ContextTree.WellLinked.reaches`).  The acts are on the context and on contexts opened since, and
they leave everything else in the tree alone, except that contexts above may become dirty
(`ContextTree.Spares`).

So a call concludes what the root of a shared tree says (`Schema.exists_acts_parseFresh`), and what
holds of every history of a tree holds of the reports of calls (`Schema.isInvalid_of_run`).
-/

namespace ValueSchema

namespace ContextTree

variable {call : Call} {t u v : ContextTree} {c d : Nat}

theorem after_append (call : Call) (t : ContextTree) (as bs : List (ContextAct Nat)) :
    t.after call (as ++ bs) = (t.after call as).after call bs :=
  List.foldl_append

/-! ## Views that agree -/

/-- A report depends only on the nodes of its context and below. -/
theorem WellLinked.report_congr (w : t.WellLinked) (wu : u.WellLinked)
    (h : ∀ x, t.AtOrBelow x c → u.node x = t.node x) : u.report c = t.report c := by
  revert h
  refine w.descend (motive := fun c => (∀ x, t.AtOrBelow x c → u.node x = t.node x) →
    u.report c = t.report c) (fun c ih h => ?_) c
  have hchildren : (t.node c).children.map u.report = (t.node c).children.map t.report := by
    refine List.map_congr_left fun d hd => ih d hd fun x hx => h x ?_
    exact w.atOrBelow_iff_child.mpr (.inr ⟨d, hd, hx⟩)
  rw [w.report_eq, wu.report_eq, h c (t.atOrBelow_self c), hchildren]

section Opened

variable {path : Path}

theorem lt_size_of_some_eq (hc : c < t.size) : ∀ p, some c = some p → p < t.size := by
  rintro _ ⟨⟩
  exact hc

theorem above_openAt (w : t.WellLinked) (hc : c < t.size) :
    (t.openAt (some c) path).2.above t.size = c :: t.above c := by
  have hlt := lt_size_of_some_eq hc
  have hparent : ((t.openAt (some c) path).2.node t.size).parent = some c := by
    rw [parent_openAt hlt, if_pos rfl]
  rw [(w.openAt hlt path).above_eq hparent]
  congr 1
  refine above_congr fun x hx => ?_
  rw [parent_openAt hlt, if_neg (Nat.ne_of_lt (Nat.lt_of_le_of_lt hx.le hc))]

end Opened

/-! ## What is left alone -/

/-- From `t` to `u`, something was done at `c`.  The other contexts of `t` are as they were,
except that those above `c` have become dirty if `c` got a mark. -/
structure Spares (t : ContextTree) (c : Nat) (mark : Bool) (u : ContextTree) : Prop where
  size_le : t.size ≤ u.size
  /-- The context stays where it is. -/
  parent_eq : (u.node c).parent = (t.node c).parent
  /-- The other contexts. -/
  node_eq : ∀ {x}, x < t.size → x ≠ c → u.node x =
    { t.node x with dirty := (t.node x).dirty || decide (x ∈ t.above c) && mark }

namespace Spares

variable {mark more : Bool}

theorem above_eq (h : Spares t c mark u) (hd : d < t.size) : u.above d = t.above d := by
  refine above_congr fun x hx => ?_
  by_cases hxc : x = c
  · rw [hxc, h.parent_eq]
  · rw [h.node_eq (Nat.lt_of_le_of_lt hx.le hd) hxc]

theorem trans (h : Spares t c mark u) (hv : Spares u c more v) (hc : c < t.size) :
    Spares t c (mark || more) v where
  size_le := Nat.le_trans h.size_le hv.size_le
  parent_eq := hv.parent_eq.trans h.parent_eq
  node_eq {x} hx hxc := by
    rw [hv.node_eq (Nat.lt_of_lt_of_le hx h.size_le) hxc, h.node_eq hx hxc, h.above_eq hc,
      Bool.and_or_distrib_left, Bool.or_assoc]

/-- A context below is not above, so nothing is done to it. -/
theorem node_below (h : Spares t c mark u) {x : Nat} (hcx : c < x) (hx : x < t.size) :
    u.node x = t.node x := by
  have habove : x ∉ t.above c := fun hm => Nat.lt_asymm hcx (lt_of_mem_above hm)
  rw [h.node_eq hx (Nat.ne_of_gt hcx)]
  simp [habove]

/-- The children that the context had keep their reports. -/
theorem reports_eq (h : Spares t c mark u) (w : t.WellLinked) (wu : u.WellLinked) :
    (t.node c).children.map u.report = (t.node c).children.map t.report := by
  refine List.map_congr_left fun d hd => w.report_congr wu fun x hx => h.node_below ?_ ?_
  · exact Nat.lt_of_lt_of_le (w.mem_children_lt hd) hx.le
  · exact hx.lt_size (w.mem_children_lt_size hd)

/-- Nothing is done, where the mark is known above already. -/
theorem refl (w : t.WellLinked) (c : Nat) : Spares t c (t.node c).marked t where
  size_le := Nat.le_refl _
  parent_eq := rfl
  node_eq {x} _ _ := by
    have hdirty : x ∈ t.above c → (t.node c).marked = true → (t.node x).dirty = true :=
      fun hx hm => w.dirty_of_mem_above hm hx
    cases hd : (t.node x).dirty with
    | true => rw [Bool.true_or, ← hd]
    | false =>
        have hnot : (decide (x ∈ t.above c) && (t.node c).marked) = false := by
          simpa [hd] using hdirty
        rw [hnot, Bool.or_false, ← hd]

theorem of_markedAt {raised : List Issue} (m : t.MarkedAt c raised u) : Spares t c true u where
  size_le := Nat.le_of_eq m.size_eq.symm
  parent_eq := m.parent_eq c
  node_eq {x} _ hxc := by simp [m.node_eq, hxc]

end Spares

section

variable {mark : Bool} {path : Path} (w : t.WellLinked) (hc : c < t.size)
  (h : Spares (t.openAt (some c) path).2 t.size mark u)

include w hc h

/-- What was done at a context that was opened from `c` shows at `c` as one more child and
perhaps as a mark. -/
theorem Spares.node_opener : u.node c =
    { t.node c with
      dirty := (t.node c).dirty || mark
      children := (t.node c).children ++ [t.size] } := by
  have hlt := lt_size_of_some_eq hc
  rw [h.node_eq (by rw [size_openAt]; omega) (Nat.ne_of_lt hc), node_openAt hlt,
    if_neg (Nat.ne_of_lt hc), if_pos rfl, above_openAt w hc]
  simp

/-- It leaves alone what is left alone by what is done at `c`. -/
theorem Spares.of_opened : Spares t c mark u where
  size_le := by
    have hle := h.size_le
    rw [size_openAt] at hle
    exact Nat.le_of_succ_le hle
  parent_eq := by rw [h.node_opener w hc]
  node_eq {x} hx hxc := by
    have hlt := lt_size_of_some_eq hc
    rw [h.node_eq (by rw [size_openAt]; omega) (Nat.ne_of_lt hx), node_openAt hlt,
      if_neg (Nat.ne_of_lt hx), if_neg (by simpa using hxc.symm), above_openAt w hc]
    simp [hxc]

end

/-- Discarding a child that was opened in the meantime leaves alone the same contexts. -/
theorem Spares.discard {mark : Bool} (h : Spares t c mark u) (w : u.WellLinked)
    (hd : d ∈ (u.node c).children) (hnew : t.size ≤ d) : Spares t c mark (u.discard c d) where
  size_le := by
    rw [size_discard]
    exact h.size_le
  parent_eq := by
    rw [w.parent_discard hd, if_neg (Nat.ne_of_lt (w.mem_children_lt hd))]
    exact h.parent_eq
  node_eq {x} hx hxc := by
    rw [w.node_discard hd, if_neg (Nat.ne_of_lt (Nat.lt_of_lt_of_le hx hnew)), if_neg hxc]
    exact h.node_eq hx hxc

/-! ## Recording on a context -/

/-- From `t` to `u`, the context `c` has come to the report `s`, and nothing else was done to the
contexts of `t`. -/
structure Recorded (t : ContextTree) (c : Nat) (s : Report) (u : ContextTree) : Prop where
  wellLinked : u.WellLinked
  report_eq : u.report c = s
  spares : Spares t c s.isInvalid u

namespace Recorded

variable {s below : Report} {there : Path}

theorem refl (w : t.WellLinked) (c : Nat) : Recorded t c (t.report c) t where
  wellLinked := w
  report_eq := rfl
  spares := by
    have hmark : (t.report c).isInvalid = (t.node c).marked := t.isInvalid_eq c
    rw [hmark]
    exact .refl w c

variable (h : Recorded t c s u) (hc : c < t.size)

include h hc

/-- An issue is raised on the context. -/
theorem raise {i : Issue} (m : u.MarkedAt c [i] v) : Recorded t c (s.raise i) v where
  wellLinked := h.wellLinked.markedAt m
  report_eq := by
    have wv := h.wellLinked.markedAt m
    have hself : c ∉ u.above c := fun hm => Nat.lt_irrefl c (lt_of_mem_above hm)
    rw [← h.report_eq, h.wellLinked.report_eq, wv.report_eq, m.children_eq,
      (Spares.of_markedAt m).reports_eq h.wellLinked wv, m.node_eq]
    simp [Report.raise, hself]
  spares := by
    have hs := h.spares.trans (.of_markedAt m) hc
    rwa [Bool.or_true] at hs

variable (hb : Recorded (u.openAt (some c) there).2 u.size below v)

include hb

/-- A context is opened from the context, and something is recorded on it. -/
theorem attach : Recorded t c (s.attach below) v := by
  have hcu : c < u.size := Nat.lt_of_lt_of_le hc h.spares.size_le
  have hspares := hb.spares.of_opened h.wellLinked hcu
  refine ⟨hb.wellLinked, ?_, ?_⟩
  · rw [← h.report_eq, h.wellLinked.report_eq, hb.wellLinked.report_eq,
      hb.spares.node_opener h.wellLinked hcu, List.map_append,
      hspares.reports_eq h.wellLinked hb.wellLinked, List.map_singleton, hb.report_eq]
    rfl
  · rw [Report.isInvalid_attach]
    exact h.spares.trans hspares hc

theorem mem_children_opened : u.size ∈ (v.node c).children := by
  rw [hb.spares.node_opener h.wellLinked (Nat.lt_of_lt_of_le hc h.spares.size_le)]
  exact List.mem_concat_self

/-- A context is opened from the context, something is recorded on it, and it is discarded. -/
theorem discard : Recorded t c (s.noteMark below) (v.discard c u.size) := by
  have hcu : c < u.size := Nat.lt_of_lt_of_le hc h.spares.size_le
  have hopener := hb.spares.node_opener h.wellLinked hcu
  have hmem := h.mem_children_opened hc hb
  have hspares := (hb.spares.of_opened h.wellLinked hcu).discard hb.wellLinked hmem (Nat.le_refl _)
  have hwell := hb.wellLinked.discard hmem
  have hkeep : (u.node c).children.filter (· ≠ u.size) = (u.node c).children :=
    List.filter_eq_self.mpr fun x hx =>
      decide_eq_true (Nat.ne_of_lt (h.wellLinked.mem_children_lt_size hx))
  have hself : (v.discard c u.size).node c =
      { u.node c with dirty := (u.node c).dirty || below.isInvalid } := by
    rw [hb.wellLinked.node_discard hmem, if_neg (Nat.ne_of_lt hcu), if_pos rfl, hopener,
      List.filter_append, hkeep]
    simp
  refine ⟨hwell, ?_, ?_⟩
  · rw [← h.report_eq, h.wellLinked.report_eq, hwell.report_eq, hself,
      hspares.reports_eq h.wellLinked hwell]
    rfl
  · rw [Report.isInvalid_noteMark]
    exact h.spares.trans hspares hc

end Recorded

/-! ## Acts for everything that a step records -/

theorem respond_child (call : Call) (hc : c < t.size) (s : Segment) :
    (t.respond call ⟨c, .child s⟩).2 = (t.openAt (some c) ((t.pathOf c).push s)).2 := by
  rw [respond, if_pos hc]
  rfl

theorem respond_branch (call : Call) (hc : c < t.size) :
    (t.respond call ⟨c, .branch⟩).2 = (t.openAt (some c) (t.pathOf c)).2 := by
  rw [respond, if_pos hc]
  rfl

theorem respond_discard (call : Call) (hc : c < t.size) (hd : d ∈ (t.node c).children) :
    (t.respond call ⟨c, .discard d⟩).2 = t.discard c d := by
  rw [respond, if_pos hc, perform, if_pos hd]

/-- A context may be opened from another one at every place that its path leads to. -/
theorem exists_openAct (call : Call) (hc : c < t.size) {there : Path}
    (h : (t.pathOf c).Leads there) :
    ∃ op, (t.respond call ⟨c, op⟩).2 = (t.openAt (some c) there).2 := by
  cases h with
  | same => exact ⟨.branch, respond_branch call hc⟩
  | further s => exact ⟨.child s, respond_child call hc s⟩

namespace WellLinked

theorem path_report (w : t.WellLinked) (c : Nat) : (t.report c).path = t.pathOf c := by
  rw [w.report_eq, pathOf_eq]

/-- A context that was just opened has recorded nothing. -/
theorem report_openAt (w : t.WellLinked) (hc : c < t.size) (path : Path) :
    (t.openAt (some c) path).2.report t.size = { path := path } := by
  have hlt := lt_size_of_some_eq hc
  rw [(w.openAt hlt path).report_eq, node_openAt hlt, if_pos rfl]
  rfl

end WellLinked

/-- Some acts on a context, and on the contexts that they open, lead to a report. -/
def Reaches (call : Call) (t : ContextTree) (c : Nat) (s : Report) : Prop :=
  ∃ acts : List (ContextAct Nat), (∀ a ∈ acts, a.context = c ∨ t.size ≤ a.context) ∧
    Recorded t c s (t.after call acts)

namespace Reaches

variable {s below : Report} {there : Path}

/-- An act more. -/
theorem concat {acts : List (ContextAct Nat)} (hon : ∀ a ∈ acts, a.context = c ∨ t.size ≤ a.context)
    (op : ContextOp Nat) (h : Recorded t c s ((t.after call acts).respond call ⟨c, op⟩).2) :
    t.Reaches call c s := by
  refine ⟨acts ++ [⟨c, op⟩], ?_, ?_⟩
  · exact List.forall_mem_append.mpr ⟨hon, List.forall_mem_singleton.mpr (.inl rfl)⟩
  · rwa [after_concat]

/-- A context is opened after that, and acts on it follow. -/
theorem exists_opened (h : t.Reaches call c s) (hc : c < t.size) (hthere : s.path.Leads there)
    (hbelow : ∀ {u : ContextTree} {d : Nat}, u.WellLinked → d < u.size →
      u.report d = { path := there } → u.Reaches call d below) :
    ∃ (acts : List (ContextAct Nat)) (u : ContextTree),
      (∀ a ∈ acts, a.context = c ∨ t.size ≤ a.context) ∧ Recorded t c s u ∧
        Recorded (u.openAt (some c) there).2 u.size below (t.after call acts) := by
  obtain ⟨acts, hon, hu⟩ := h
  generalize hafter : t.after call acts = u at hu
  have hle := hu.spares.size_le
  have hcu : c < u.size := Nat.lt_of_lt_of_le hc hle
  have hpath : s.path = u.pathOf c := by rw [← hu.report_eq, hu.wellLinked.path_report]
  have hsize := size_openAt u (some c) there
  obtain ⟨op, hop⟩ := exists_openAct call hcu (hpath ▸ hthere)
  obtain ⟨more, honmore, hv⟩ := hbelow (hu.wellLinked.openAt (lt_size_of_some_eq hcu) there)
    (hsize ▸ Nat.lt_succ_self u.size) (hu.wellLinked.report_openAt hcu there)
  refine ⟨acts ++ ⟨c, op⟩ :: more, u, ?_, hu, ?_⟩
  · have hmore : ∀ a ∈ more, a.context = c ∨ t.size ≤ a.context := by
      intro a ha
      rcases honmore a ha with heq | hle' <;> omega
    exact List.forall_mem_append.mpr ⟨hon, List.forall_mem_cons.mpr ⟨.inl rfl, hmore⟩⟩
  · rwa [after_append, hafter, after, List.foldl_cons, hop]

end Reaches

/-- Whatever a step records in its report, acts on a context and on the contexts that are opened
from it record in a tree. -/
theorem WellLinked.reaches {r s : Report} (h : r.Grown call s) :
    ∀ {t : ContextTree} {c : Nat}, t.WellLinked → c < t.size → t.report c = r →
      t.Reaches call c s := by
  induction h with
  | refl r =>
      rintro t c w - rfl
      exact ⟨[], List.forall_mem_nil _, .refl w c⟩
  | @raise r s _ cause own data ih =>
      intro t c w hc hr
      obtain ⟨acts, hon, hu⟩ := ih w hc hr
      have hcu : c < (t.after call acts).size := Nat.lt_of_lt_of_le hc hu.spares.size_le
      have hpath : (t.after call acts).pathOf c = s.path := by
        rw [← hu.wellLinked.path_report, hu.report_eq]
      refine .concat hon (.addIssue cause own data) ?_
      rw [ContextTree.respond, if_pos hcu, ← hpath]
      exact hu.raise hc (hu.wellLinked.markedAt_raise hcu _)
  | attach _ hthere _ ih ihbelow =>
      intro t c w hc hr
      obtain ⟨acts, u, hon, hu, hv⟩ := (ih w hc hr).exists_opened hc hthere ihbelow
      exact ⟨acts, hon, hu.attach hc hv⟩
  | discard _ hthere _ ih ihbelow =>
      intro t c w hc hr
      obtain ⟨acts, u, hon, hu, hv⟩ := (ih w hc hr).exists_opened hc hthere ihbelow
      have hcv : c < (t.after call acts).size :=
        Nat.lt_of_lt_of_le hc (hu.attach hc hv).spares.size_le
      refine .concat hon (.discard u.size) ?_
      rw [respond_discard call hcv (hu.mem_children_opened hc hv)]
      exact hu.discard hc hv

end ContextTree

namespace Schema

variable (s : Schema) (call : Call) (v : Value)

/-- Whatever a run records at a place, acts record on a context with the same report. -/
theorem reaches_runWithin (hops : Nat) {p : Progress} {t : ContextTree} {c : Nat}
    (w : t.WellLinked) (hc : c < t.size) (hr : t.report c = p.report) :
    t.Reaches call c (s.runWithin call hops v p).2.report :=
  w.reaches (s.grown_runWithin call hops v p) hc hr

/-- The report of a call is what acts leave at the root of a shared tree. -/
theorem exists_acts_run :
    ∃ acts, (ContextTree.init.after call acts).report 0 =
      (s.run call v { report := { path := .root } }).2.report := by
  have hroot : ContextTree.init.report 0 = { path := .root } := rfl
  obtain ⟨acts, -, h⟩ := s.reaches_runWithin call v (hopsOf call)
    (p := { report := { path := .root } }) ContextTree.wellLinked_init Nat.zero_lt_one hroot
  exact ⟨acts, h.report_eq⟩

/-- A call concludes what the root of a shared tree says. -/
theorem exists_acts_parseFresh :
    ∃ acts, (s.parseFresh call v).1 = (s.run call v { report := { path := .root } }).1.map
      ((ContextTree.init.after call acts).report 0).conclude := by
  obtain ⟨acts, h⟩ := s.exists_acts_run call v
  exact ⟨acts, by rw [h]; rfl⟩

/-- What a new look finds invalid in the report of a call is marked there, as it is in every shared
tree.  The call may also end with a misuse. -/
theorem isInvalid_of_run
    (h : (s.run call v { report := { path := .root } }).2.report.isValid = false) :
    (s.run call v { report := { path := .root } }).2.report.isInvalid = true := by
  obtain ⟨acts, hacts⟩ := s.exists_acts_run call v
  rw [← hacts] at h ⊢
  exact (ContextTree.wellLinked_after call acts).isInvalid_of_isValid_eq_false h

end Schema

end ValueSchema

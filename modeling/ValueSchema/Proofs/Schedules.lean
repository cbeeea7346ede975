import Mathlib.Data.Set.Function
import ValueSchema.Proofs.Solos

/-!
# The order of acts of different sides does not matter

Two schedules of the same acts, in which each side keeps the order of its own acts, lead
to the same tree up to the numbers of contexts (`ContextTree.SameUpTo`).  The argument
compares each session with the solos of the sides, which do not depend on the schedule
(`Session.Together.sameUpTo`).

`Session.interleavings_agree` is the case of sides that start at contexts none of which
is below another one.  Each side gets the same answers, and every context has the same
path, the same validity and the same list of issues.  The contexts that were there at the
start, among them those above several sides, even keep their numbers.  `Session.raised`
says which issues a schedule raises on a context, in the order of raising.
-/

namespace ValueSchema

namespace ContextTree

variable {σ : Nat → Nat} {t u : ContextTree} {c : Nat}

/-- Two trees are the same up to the numbers of contexts. -/
structure SameUpTo (σ : Nat → Nat) (t u : ContextTree) : Prop where
  /-- Each context has one counterpart. -/
  bijOn : Set.BijOn σ {c | c < t.size} {c | c < u.size}
  /-- The nodes are the same. -/
  node_eq : ∀ c, c < t.size → u.node (σ c) = (t.node c).renumber σ

theorem SameUpTo.mirrors (h : SameUpTo σ t u) (w : t.WellLinked) :
    Mirrors σ (· < t.size) (fun _ => False) t u where
  territory :=
    { own_lt := id
      shared_lt := False.elim
      own_child := fun _ hd => w.mem_children_lt_size hd
      own_parent := fun hc hp => .inl (Nat.lt_trans (w.parent_lt hp) hc)
      shared_parent := False.elim }
  node_eq hc := h.node_eq _ hc
  image_lt hc := h.bijOn.mapsTo hc
  shared_eq := False.elim
  shared_lt := False.elim
  shared_parent := False.elim
  injective hc hd := h.bijOn.injOn (hc.resolve_right id) (hd.resolve_right id)

/-- The same is recorded at and below every context. -/
theorem SameUpTo.report_eq (h : SameUpTo σ t u) (wt : t.WellLinked) (wu : u.WellLinked)
    (hc : c < t.size) : u.report (σ c) = t.report c :=
  (h.mirrors wt).report_eq wt wu hc

theorem SameUpTo.pathOf_eq (h : SameUpTo σ t u) (hc : c < t.size) :
    u.pathOf (σ c) = t.pathOf c := by
  rw [ContextTree.pathOf_eq, ContextTree.pathOf_eq, h.node_eq c hc]
  rfl

end ContextTree

namespace Session

variable {ι : Type} {t : ContextTree} {own : ι → Nat → Prop} {s s' : Session ι}
  {solo : ι → Session ι} {i j : ι} {c d x : Nat} {call : Call}

/-- A context of a session is common, or the counterpart of a context of a solo. -/
theorem Together.exists_counterpart (h : Together t own solo s) {ρ : ι → Nat → Nat}
    (hρ : ∀ i, Follows t own i (solo i) s (ρ i)) (hc : c < s.tree.size) :
    t.Common own c ∨ ∃ i x, (solo i).Holds own i x ∧ ρ i x = c := by
  by_cases hct : c < t.size
  · by_cases hi : ∃ i, own i c
    · obtain ⟨i, hi⟩ := hi
      exact .inr ⟨i, c, .inl hi, (hρ i).given_eq c hct⟩
    · exact .inl ⟨hct, fun i hic => hi ⟨i, hic⟩⟩
  · obtain ⟨i, hi⟩ := h.tidy.cover (Nat.le_of_not_lt hct) hc
    rw [(hρ i).opened_eq, List.mem_map] at hi
    obtain ⟨x, hx, hxc⟩ := hi
    exact .inr ⟨i, x, .inr hx, hxc⟩

/-- Two contexts of solos with one counterpart are the same. -/
theorem Together.counterpart_injective (h : Together t own solo s) (hap : t.Apart own)
    {ρ : ι → Nat → Nat} (hρ : ∀ i, Follows t own i (solo i) s (ρ i)) {y : Nat}
    (hx : (solo i).Holds own i x) (hy : (solo j).Holds own j y) (hxy : ρ i x = ρ j y) :
    i = j ∧ x = y := by
  obtain rfl : i = j := h.tidy.disjoint ((hρ i).holds hap hx) (hxy ▸ (hρ j).holds hap hy)
  exact ⟨rfl, (hρ i).mirrors.injective (.inl hx) (.inl hy) hxy⟩

/-- Common contexts are the same in all sessions with the same solos. -/
theorem Together.common_node_eq (h : Together t own solo s) (h' : Together t own solo s')
    (hc : t.Common own c) : s'.tree.node c = s.tree.node c := by
  obtain ⟨b, hb⟩ := h.tidy.common hc
  obtain ⟨b', hb'⟩ := h'.tidy.common hc
  have hdirty : b' = b := by
    have hiff := (h'.dirty_iff hc).trans (h.dirty_iff hc).symm
    rw [hb, hb'] at hiff
    exact Bool.eq_iff_iff.mpr hiff
  rw [hb, hb', hdirty]

/-- The counterparts that contexts of the solos have in one session, translated into those
that they have in another one. -/
structure Translates (t : ContextTree) (own : ι → Nat → Prop) (solo : ι → Session ι)
    (ρ ρ' : ι → Nat → Nat) (σ : Nat → Nat) : Prop where
  /-- The contexts at the start keep their numbers. -/
  given_eq : ∀ c, c < t.size → σ c = c
  /-- Counterparts become counterparts. -/
  counterpart_eq : ∀ i x, (solo i).Holds own i x → σ (ρ i x) = ρ' i x

section

variable {ρ ρ' : ι → Nat → Nat}

theorem Together.exists_translation (h : Together t own solo s) (hap : t.Apart own)
    (hρ : ∀ i, Follows t own i (solo i) s (ρ i)) (hρ' : ∀ i, Follows t own i (solo i) s' (ρ' i)) :
    ∃ σ, Translates t own solo ρ ρ' σ := by
  have hex : ∀ c, ∃ c', (c < t.size → c' = c) ∧
      ∀ i x, (solo i).Holds own i x → ρ i x = c → c' = ρ' i x := by
    intro c
    by_cases hct : c < t.size
    · -- such a context is its own counterpart in both sessions
      refine ⟨c, fun _ => rfl, fun i x hx hxc => ?_⟩
      rcases hx with hx | hx
      · rw [(hρ' i).given_eq x (hap.lt_size hx), ← hxc, (hρ i).given_eq x (hap.lt_size hx)]
      · have hopened : c ∈ s.opened i := by
          rw [(hρ i).opened_eq, ← hxc]
          exact List.mem_map_of_mem hx
        exact absurd hct (Nat.not_lt_of_le (h.tidy.opened_range hopened).1)
    · by_cases hix : ∃ i x, (solo i).Holds own i x ∧ ρ i x = c
      · obtain ⟨i, x, hx, hxc⟩ := hix
        refine ⟨ρ' i x, fun hc => absurd hc hct, fun j y hy hyc => ?_⟩
        obtain ⟨rfl, rfl⟩ := h.counterpart_injective hap hρ hx hy (hxc.trans hyc.symm)
        rfl
      · exact ⟨c, fun _ => rfl, fun i x hx hxc => absurd ⟨i, x, hx, hxc⟩ hix⟩
  choose σ hσ using hex
  exact ⟨σ, fun c => (hσ c).1, fun i x hx => (hσ _).2 i x hx rfl⟩

variable {σ : Nat → Nat} (hσ : Translates t own solo ρ ρ' σ) (h : Together t own solo s)
  (h' : Together t own solo s') (hap : t.Apart own) (hρ : ∀ i, Follows t own i (solo i) s (ρ i))
  (hρ' : ∀ i, Follows t own i (solo i) s' (ρ' i))

include hσ h h' hap hρ hρ'

theorem Translates.bijOn : Set.BijOn σ {c | c < s.tree.size} {c | c < s'.tree.size} := by
  have hle := h.tidy.size_le
  have hle' := h'.tidy.size_le
  refine ⟨?_, ?_, ?_⟩
  · intro c hc
    show σ c < s'.tree.size
    rcases h.exists_counterpart hρ hc with hc | ⟨i, x, hx, rfl⟩
    · have hct := hc.1
      rw [hσ.given_eq c hct]
      omega
    · rw [hσ.counterpart_eq i x hx]
      exact (hρ' i).mirrors.image_lt hx
  · intro c hc d hd hcd
    rcases h.exists_counterpart hρ hc with hc | ⟨i, x, hx, rfl⟩ <;>
      rcases h.exists_counterpart hρ hd with hd | ⟨j, y, hy, rfl⟩
    · rwa [hσ.given_eq c hc.1, hσ.given_eq d hd.1] at hcd
    · rw [hσ.given_eq c hc.1, hσ.counterpart_eq j y hy] at hcd
      exact absurd (hcd ▸ (hρ' j).holds hap hy) (h'.tidy.not_holds_of_common hc j)
    · rw [hσ.given_eq d hd.1, hσ.counterpart_eq i x hx] at hcd
      exact absurd (hcd ▸ (hρ' i).holds hap hx) (h'.tidy.not_holds_of_common hd i)
    · rw [hσ.counterpart_eq i x hx, hσ.counterpart_eq j y hy] at hcd
      obtain ⟨rfl, rfl⟩ := h'.counterpart_injective hap hρ' hx hy hcd
      rfl
  · intro c hc
    rcases h'.exists_counterpart hρ' hc with hc | ⟨i, x, hx, rfl⟩
    · exact ⟨c, Nat.lt_of_lt_of_le hc.1 hle, hσ.given_eq c hc.1⟩
    · exact ⟨ρ i x, (hρ i).mirrors.image_lt hx, hσ.counterpart_eq i x hx⟩

theorem Translates.node_eq (hc : c < s.tree.size) :
    s'.tree.node (σ c) = (s.tree.node c).renumber σ := by
  rcases h.exists_counterpart hρ hc with hc | ⟨i, x, hx, rfl⟩
  · -- the links of common contexts lead to contexts that were there at the start
    obtain ⟨b, hb⟩ := h.tidy.common hc
    rw [hσ.given_eq c hc.1, h.common_node_eq h' hc, hb]
    refine (ContextNode.renumber_eq_self (fun p hp => ?_) fun d hd => ?_).symm
    · exact hσ.given_eq p (Nat.lt_trans (hap.linked.parent_lt hp) hc.1)
    · exact hσ.given_eq d (hap.linked.mem_children_lt_size hd)
  · have hlink : ∀ y, (solo i).Holds own i y ∨ t.Common own y → ρ' i y = (σ ∘ ρ i) y := by
      rintro y (hy | hy)
      · exact (hσ.counterpart_eq i y hy).symm
      · rw [Function.comp_apply, (hρ i).given_eq y hy.1, (hρ' i).given_eq y hy.1,
          hσ.given_eq y hy.1]
    rw [hσ.counterpart_eq i x hx, (hρ' i).mirrors.node_eq hx, (hρ i).mirrors.node_eq hx,
      ContextNode.renumber_renumber]
    exact ContextNode.renumber_congr
      (fun p hp => hlink p ((hρ i).mirrors.territory.own_parent hx hp))
      (fun d hd => hlink d (.inl ((hρ i).mirrors.territory.own_child hx hd)))

end

/-- Two sessions with the same solos are the same up to the numbers of contexts. -/
theorem Together.sameUpTo (h : Together t own solo s) (h' : Together t own solo s')
    (hap : t.Apart own) :
    ∃ σ : Nat → Nat, (∀ c, c < t.size → σ c = c) ∧ (∀ i, s'.opened i = (s.opened i).map σ) ∧
      s.tree.SameUpTo σ s'.tree := by
  choose ρ hρ using h.follows
  choose ρ' hρ' using h'.follows
  obtain ⟨σ, hσ⟩ := h.exists_translation hap hρ hρ'
  refine ⟨σ, hσ.given_eq, fun i => ?_, hσ.bijOn h h' hap hρ hρ',
    fun c hc => hσ.node_eq h h' hap hρ hρ' hc⟩
  rw [(hρ i).opened_eq, (hρ' i).opened_eq, List.map_map]
  exact List.map_congr_left fun x hx => (hσ.counterpart_eq i x (.inr hx)).symm

/-! ## Schedules of the same acts -/

/-- A schedule has each side perform its acts in their order. -/
def Interleaves [DecidableEq ι] (acts : ι → List (ContextAct Handle))
    (w : List (ι × ContextAct Handle)) : Prop :=
  ∀ i, (w.filter (·.1 = i)).map (·.2) = acts i

namespace Interleaves

variable [DecidableEq ι] {acts : ι → List (ContextAct Handle)} {v w : List (ι × ContextAct Handle)}

theorem mem_acts (h : Interleaves acts w) {y : ι × ContextAct Handle} (hy : y ∈ w) :
    y.2 ∈ acts y.1 := by
  rw [← h y.1]
  exact List.mem_map_of_mem (List.mem_filter.mpr ⟨hy, decide_eq_true rfl⟩)

/-- What a side does in a schedule. -/
theorem filter_eq (h : Interleaves acts w) (i : ι) :
    w.filter (·.1 = i) = (acts i).map fun a => (i, a) := by
  rw [← h i, List.map_map]
  refine (List.map_id _).symm.trans (List.map_congr_left fun y hy => ?_)
  have hi : y.1 = i := of_decide_eq_true (List.mem_filter.mp hy).2
  exact Prod.ext hi rfl

end Interleaves

/-- Two schedules of the same acts, each within its side, give the same answers and the
same tree up to the numbers of new contexts. -/
theorem sameUpTo_run [DecidableEq ι] (hap : t.Apart own) (call : Call)
    {acts : ι → List (ContextAct Handle)} {v w : List (ι × ContextAct Handle)}
    (hv : Interleaves acts v) (hw : Interleaves acts w)
    (hwithin : ∀ i, ∀ a ∈ acts i, Within own i a) :
    (∀ i, ((start t).run call v).1.filter (·.1 = i) =
      ((start t).run call w).1.filter (·.1 = i)) ∧
    ∃ σ : Nat → Nat, (∀ c, c < t.size → σ c = c) ∧
      (∀ i, ((start t).run call w).2.opened i =
        (((start t).run call v).2.opened i).map σ) ∧
      ((start t).run call v).2.tree.SameUpTo σ ((start t).run call w).2.tree := by
  obtain ⟨hansv, htv⟩ := (Together.of_apart hap).run hap call v fun y hy => hwithin _ _ (hv.mem_acts hy)
  obtain ⟨hansw, htw⟩ := (Together.of_apart hap).run hap call w fun y hy => hwithin _ _ (hw.mem_acts hy)
  -- the solos are the same, so the answers are
  have hsame : ∀ i, v.filter (·.1 = i) = w.filter (·.1 = i) := fun i =>
    (hv.filter_eq i).trans (hw.filter_eq i).symm
  simp only [hsame] at hansv htv
  exact ⟨fun i => (hansv i).trans (hansw i).symm, htv.sameUpTo htw hap⟩

/-! ## Sides below different contexts -/

/-- What a schedule gives when it starts after a history. -/
def trial [DecidableEq ι] (call : Call) (past : List (ContextAct Nat))
    (w : List (ι × ContextAct Handle)) : List (ι × ContextAnswer) × Session ι :=
  (start (ContextTree.init.after call past)).run call w

/-- Schedules do not matter.  After any history, any number of sides act each on a context
of its own and on what is below it, and none of these contexts is below another one.  In
two schedules of their acts, each side gets the same answers, and the trees are the same
up to the numbers of contexts, which stay as they are for the contexts of the history.
Each context has the same path, the same validity, by the marks as well as recomputed,
and the same issues: first its own as they were raised, then those of its children as
they were opened. -/
theorem interleavings_agree [DecidableEq ι] (call : Call)
    (past : List (ContextAct Nat)) (root : ι → Nat) (acts : ι → List (ContextAct Handle))
    (v w : List (ι × ContextAct Handle))
    (hroot : ∀ i, root i < (ContextTree.init.after call past).size)
    (hapart : ∀ i j, i ≠ j → ¬ (ContextTree.init.after call past).AtOrBelow (root i) (root j))
    (hwithin : ∀ i, ∀ a ∈ acts i, ∀ c, Handle.given c ∈ a.named →
      (ContextTree.init.after call past).AtOrBelow c (root i))
    (hv : Interleaves acts v) (hw : Interleaves acts w) :
    (∀ i, (trial call past v).1.filter (·.1 = i) = (trial call past w).1.filter (·.1 = i)) ∧
    (∃ σ : Nat → Nat,
      (∀ c, c < (ContextTree.init.after call past).size → σ c = c) ∧
      (∀ i, (trial call past w).2.opened i = ((trial call past v).2.opened i).map σ) ∧
      (trial call past v).2.tree.SameUpTo σ (trial call past w).2.tree ∧
      ∀ c, c < (trial call past v).2.tree.size →
        (trial call past w).2.tree.pathOf (σ c) = (trial call past v).2.tree.pathOf c ∧
        (trial call past w).2.tree.isInvalid (σ c) = (trial call past v).2.tree.isInvalid c ∧
        (trial call past w).2.tree.isValid (σ c) = (trial call past v).2.tree.isValid c ∧
        (trial call past w).2.tree.issues (σ c) = (trial call past v).2.tree.issues c) ∧
    ∀ c, (trial call past v).2.tree.issues c =
          ((ContextTree.init.after call past).node c).issues ++
            (start (ContextTree.init.after call past)).raised call v c ++
            ((trial call past v).2.tree.node c).children.flatMap (trial call past v).2.tree.issues ∧
        ((trial call past v).2.tree.node c).children.Pairwise (· < ·) := by
  have hlinked : ∀ w : List (ι × ContextAct Handle), (trial call past w).2.tree.WellLinked :=
    linked_run (ContextTree.wellLinked_after call past) call
  have hap := (ContextTree.wellLinked_after call past).apart hroot hapart
  obtain ⟨hanswers, σ, hgiven, hopened, hσ⟩ := sameUpTo_run hap call hv hw hwithin
  refine ⟨hanswers, ⟨σ, hgiven, hopened, hσ, fun c hc => ?_⟩, fun c => ⟨?_, ?_⟩⟩
  · have hreport := hσ.report_eq (hlinked v) (hlinked w) hc
    exact ⟨hσ.pathOf_eq hc, congrArg Report.isInvalid hreport, congrArg Report.isValid hreport,
      congrArg Report.allIssues hreport⟩
  · have hissues : ((trial call past v).2.tree.node c).issues = _ :=
      issues_run (ContextTree.wellLinked_after call past) call v c
    rw [(hlinked v).issues_eq, hissues]
    rfl
  · exact (hlinked v).increasing c

/-- The acts of two sides.  One fills the first of two contexts with issues, the other one
tries something below the second context and gives it up. -/
def fillAndTry : Bool → List (ContextAct Handle)
  | false =>
      [⟨.given 1, .child (.index 0)⟩, ⟨.opened 0, .addIssue .forbidden none .null⟩,
        ⟨.given 1, .addIssue .required none .undefined⟩, ⟨.given 1, .isValid⟩]
  | true =>
      [⟨.given 2, .branch⟩, ⟨.opened 0, .setInvalid⟩, ⟨.given 2, .discard (.opened 0)⟩,
        ⟨.given 2, .isInvalid⟩]

/-- One side after the other. -/
def oneByOne : List (Bool × ContextAct Handle) :=
  (fillAndTry false).map (fun a => (false, a)) ++ (fillAndTry true).map fun a => (true, a)

/-- The sides take turns, the second one first. -/
def inTurns : List (Bool × ContextAct Handle) :=
  ((fillAndTry true).zip (fillAndTry false)).flatMap fun x => [(true, x.1), (false, x.2)]

/-- Two contexts are opened below the root. -/
def twoOpened : List (ContextAct Nat) :=
  [⟨0, .child (.field "name")⟩, ⟨0, .child (.field "age")⟩]

/-- The root lists the same two issues, whether the sides go one by one or in turns. -/
theorem oneByOne_inTurns :
    (trial {} twoOpened oneByOne).2.tree.issues 0 = (trial {} twoOpened inTurns).2.tree.issues 0 ∧
      ((trial {} twoOpened oneByOne).2.tree.issues 0).length = 2 := by
  have hnamed : ∀ i, ∀ a ∈ fillAndTry i, ∀ c, Handle.given c ∈ a.named →
      c = if i then 2 else 1 := by
    intro i a ha c hc
    cases i <;> simp only [fillAndTry, List.mem_cons, List.not_mem_nil, or_false] at ha <;>
      rcases ha with rfl | rfl | rfl | rfl <;>
      simp [ContextAct.named, ContextOp.named] at hc <;> exact hc
  obtain ⟨-, ⟨σ, hgiven, -, -, hviews⟩, -⟩ :=
    interleavings_agree {} twoOpened (fun i => if i then 2 else 1) fillAndTry oneByOne inTurns
      (by decide +kernel) (by decide +kernel)
      (fun i a ha c hc => hnamed i a ha c hc ▸ ContextTree.atOrBelow_self ..)
      (by intro i; cases i <;> rfl) (by intro i; cases i <;> rfl)
  have hroot : σ 0 = 0 := hgiven 0 (by decide +kernel)
  have hissues := (hviews 0 (by decide +kernel)).2.2.2
  rw [hroot] at hissues
  exact ⟨hissues.symm, by decide +kernel⟩

end Session

end ValueSchema

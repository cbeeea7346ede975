import Mathlib.Tactic.ByContra
import ValueSchema.Proofs.Mirror

/-!
# Several sides at work on one tree

A *side* is one of several sequences of acts on the same tree.  A side names a context
either by its number, if the context was there at the start, or as the `k`-th context
that the side has opened (`Handle`), since the numbers of new contexts depend on what the
other sides do.  A *schedule* says which side performs the next act, and a `Session` runs
it and remembers what each side has opened.

Each side has contexts of its own at the start (`ContextTree.Apart`).  While it acts only
on these and on those it has opened, the sides stay apart: `Session.Tidy` is the
invariant, and `Tidy.step` says that every act keeps it.  An act leaves the contexts of
other sides alone, and of the contexts that belong to no side it changes only the marks
(`Tidy.node_step`, `Tidy.common_step`).
-/

namespace ValueSchema

/-- How a side names a context. -/
inductive Handle where
  /-- A context that was there at the start. -/
  | given (c : Nat)
  /-- The `k`-th context that the side has opened, counted from 0. -/
  | opened (k : Nat)

/-- A tree at which several sides work. -/
structure Session (ι : Type) where
  /-- The tree. -/
  tree : ContextTree
  /-- The contexts that each side has opened, oldest first. -/
  opened : ι → List Nat

namespace Session

variable {ι : Type}

/-- Nothing is opened yet. -/
def start (t : ContextTree) : Session ι := ⟨t, fun _ => []⟩

/-- The number of a context.  A side that names a context it has not opened gets a number
that no context has. -/
def find (s : Session ι) (i : ι) : Handle → Nat
  | .given c => c
  | .opened k => (s.opened i)[k]?.getD s.tree.size

/-- The contexts that an act opens. -/
def grown (t u : ContextTree) : List Nat := if t.size < u.size then [t.size] else []

variable [DecidableEq ι]

/-- One side performs an act. -/
def step (call : Call) (s : Session ι) (i : ι) (a : ContextAct Handle) :
    ContextAnswer × Session ι :=
  let r := s.tree.respond call (a.map (s.find i))
  (r.1, ⟨r.2, Function.update s.opened i (s.opened i ++ grown s.tree r.2)⟩)

/-- Performs a schedule.  Each answer is noted with the side that gets it. -/
def run (call : Call) (s : Session ι) : List (ι × ContextAct Handle) →
    List (ι × ContextAnswer) × Session ι
  | [] => ([], s)
  | (i, a) :: w =>
      let r := s.step call i a
      let q := r.2.run call w
      ((i, r.1) :: q.1, q.2)

/-- The issues that a schedule raises on the context `c`, in the order of raising. -/
def raised (call : Call) (s : Session ι) : List (ι × ContextAct Handle) → Nat → List Issue
  | [], _ => []
  | (i, a) :: w, c =>
      s.tree.raised call (a.map (s.find i)) c ++ (s.step call i a).2.raised call w c

theorem linked_run {s : Session ι} (h : s.tree.WellLinked) (call : Call)
    (w : List (ι × ContextAct Handle)) : (s.run call w).2.tree.WellLinked := by
  induction w generalizing s with
  | nil => exact h
  | cons x w ih =>
      obtain ⟨i, a⟩ := x
      exact ih (s := (s.step call i a).2) (h.respond call _)

/-- The issues of a context stand in the order in which they are raised. -/
theorem issues_run {s : Session ι} (h : s.tree.WellLinked) (call : Call)
    (w : List (ι × ContextAct Handle)) (c : Nat) :
    ((s.run call w).2.tree.node c).issues = (s.tree.node c).issues ++ s.raised call w c := by
  induction w generalizing s with
  | nil => exact (List.append_nil _).symm
  | cons x w ih =>
      obtain ⟨i, a⟩ := x
      have hstep : ((s.step call i a).2.tree.node c).issues =
          (s.tree.node c).issues ++ s.tree.raised call (a.map (s.find i)) c :=
        h.issues_respond call _ c
      have hrest := ih (s := (s.step call i a).2) (h.respond call _)
      rw [hstep, List.append_assoc] at hrest
      exact hrest

end Session

/-! ## Sides that stay apart -/

namespace ContextTree

variable {ι : Type} {t : ContextTree} {own : ι → Nat → Prop}

/-- Sides share no context, and what is below a context of a side is one of its contexts
too. -/
structure Apart (t : ContextTree) (own : ι → Nat → Prop) : Prop where
  /-- The links of the tree. -/
  linked : t.WellLinked
  /-- The contexts of a side exist. -/
  lt_size : ∀ {i c}, own i c → c < t.size
  /-- No context belongs to two sides. -/
  disjoint : ∀ {i j c}, own i c → own j c → i = j
  /-- What is below a context of a side belongs to the side. -/
  child : ∀ {i c d}, own i c → d ∈ (t.node c).children → own i d

/-- The contexts that belong to no side. -/
def Common (t : ContextTree) (own : ι → Nat → Prop) (c : Nat) : Prop :=
  c < t.size ∧ ∀ i, ¬ own i c

/-- The contexts of a side form a territory. -/
theorem Apart.territory (h : t.Apart own) (i : ι) : t.Territory (own i) (t.Common own) := by
  have hparent : ∀ {c p j}, (t.node c).parent = some p → own j p → own j c := fun hp hj =>
    h.child hj (h.linked.mem_children.mpr hp)
  constructor
  · exact h.lt_size
  · exact And.left
  · exact h.child
  · intro c p hc hp
    have hlt := h.linked.parent_lt hp
    have hct := h.lt_size hc
    by_cases hj : ∃ j, own j p
    · obtain ⟨j, hj⟩ := hj
      obtain rfl := h.disjoint hc (hparent hp hj)
      exact .inl hj
    · exact .inr ⟨by omega, fun j hjp => hj ⟨j, hjp⟩⟩
  · intro c p hc hp
    have hlt := h.linked.parent_lt hp
    have hct := hc.1
    exact ⟨by omega, fun j hj => hc.2 j (hparent hp hj)⟩

/-- Contexts none of which is below another one keep their sides apart. -/
theorem WellLinked.apart {root : ι → Nat} (w : t.WellLinked) (hroot : ∀ i, root i < t.size)
    (hapart : ∀ i j, i ≠ j → ¬ t.AtOrBelow (root i) (root j)) :
    t.Apart fun i c => t.AtOrBelow c (root i) where
  linked := w
  lt_size {i c} hc := hc.lt_size (hroot i)
  disjoint {i j c} hi hj := by
    by_contra hij
    rcases w.atOrBelow_total hi hj with h | h
    · exact hapart i j hij h
    · exact hapart j i (Ne.symm hij) h
  child {i c d} hc hd := by
    rw [w.atOrBelow_of_parent (w.mem_children.mp hd)]
    exact .inr hc

end ContextTree

namespace Session

/-- The contexts of a side at any time. -/
def Holds {ι : Type} (own : ι → Nat → Prop) (s : Session ι) (i : ι) (c : Nat) : Prop :=
  own i c ∨ c ∈ s.opened i

/-- A side acts only on its own contexts. -/
def Within {ι : Type} (own : ι → Nat → Prop) (i : ι) (a : ContextAct Handle) : Prop :=
  ∀ c, Handle.given c ∈ a.named → own i c

/-- The sides have stayed apart since the start at the tree `t`. -/
structure Tidy {ι : Type} (t : ContextTree) (own : ι → Nat → Prop) (s : Session ι) : Prop where
  /-- The links of the tree. -/
  linked : s.tree.WellLinked
  /-- No context gets lost. -/
  size_le : t.size ≤ s.tree.size
  /-- What a side has opened was not there at the start. -/
  opened_range : ∀ {i c}, c ∈ s.opened i → t.size ≤ c ∧ c < s.tree.size
  /-- Every new context was opened by a side. -/
  cover : ∀ {c}, t.size ≤ c → c < s.tree.size → ∃ i, c ∈ s.opened i
  /-- No context belongs to two sides. -/
  disjoint : ∀ {i j c}, s.Holds own i c → s.Holds own j c → i = j
  /-- What is below a context of a side belongs to the side. -/
  child : ∀ {i c d}, s.Holds own i c → d ∈ (s.tree.node c).children → s.Holds own i d
  /-- Nothing but marks from below is recorded on common contexts. -/
  common : ∀ {c}, t.Common own c → ∃ b, s.tree.node c = { t.node c with dirty := b }

variable {ι : Type} {t : ContextTree} {own : ι → Nat → Prop} {s : Session ι} {i j : ι}
  {c d : Nat} {a : ContextAct Handle} {call : Call}

theorem Tidy.of_apart (h : t.Apart own) : Tidy t own (start t) where
  linked := h.linked
  size_le := Nat.le_refl _
  opened_range hc := by cases hc
  cover hle hlt := absurd hlt (Nat.not_lt_of_le hle)
  disjoint hi hj := h.disjoint (hi.resolve_right nofun) (hj.resolve_right nofun)
  child hc hd := .inl (h.child (hc.resolve_right nofun) hd)
  common {c} _ := ⟨(t.node c).dirty, rfl⟩

theorem find_holds (ha : Within own i a) {k : Handle} (hk : k ∈ a.named) :
    s.Holds own i (s.find i k) ∨ s.find i k = s.tree.size := by
  cases k with
  | given c => exact .inl (.inl (ha c hk))
  | opened k =>
      rw [find]
      cases hk : (s.opened i)[k]? with
      | none => exact .inr rfl
      | some c => exact .inl (.inr (List.mem_of_getElem? hk))

section

variable [DecidableEq ι]

theorem opened_step_self (call : Call) (s : Session ι) (i : ι) (a : ContextAct Handle) :
    (s.step call i a).2.opened i = s.opened i ++ grown s.tree (s.step call i a).2.tree :=
  Function.update_self ..

/-- What an act opens belongs to the side. -/
theorem mem_opened_step (call : Call) (s : Session ι) (i j : ι) (a : ContextAct Handle)
    (c : Nat) :
    c ∈ (s.step call i a).2.opened j ↔ c ∈ s.opened j ∨
      j = i ∧ c = s.tree.size ∧ s.tree.size < (s.step call i a).2.tree.size := by
  have hgrown : c ∈ grown s.tree (s.step call i a).2.tree ↔
      c = s.tree.size ∧ s.tree.size < (s.step call i a).2.tree.size := by
    unfold grown
    split <;> simp [*]
  show c ∈ Function.update s.opened i
    (s.opened i ++ grown s.tree (s.step call i a).2.tree) j ↔ _
  by_cases hj : j = i
  · rw [hj, Function.update_self, List.mem_append]
    simp [hgrown]
  · simp [hj]

theorem holds_step (own : ι → Nat → Prop) (call : Call) (s : Session ι) (i j : ι)
    (a : ContextAct Handle) (c : Nat) :
    (s.step call i a).2.Holds own j c ↔ s.Holds own j c ∨
      j = i ∧ c = s.tree.size ∧ s.tree.size < (s.step call i a).2.tree.size := by
  unfold Holds
  rw [mem_opened_step, or_assoc]

end

namespace Tidy

theorem lt_size_of_holds (h : Tidy t own s) (hap : t.Apart own) (hc : s.Holds own i c) :
    c < s.tree.size := by
  rcases hc with hc | hc
  · exact Nat.lt_of_lt_of_le (hap.lt_size hc) h.size_le
  · exact (h.opened_range hc).2

theorem not_holds_of_common (h : Tidy t own s) (hc : t.Common own c) (i : ι) :
    ¬ s.Holds own i c := by
  rintro (hi | hi)
  · exact hc.2 i hi
  · exact Nat.not_lt_of_le (h.opened_range hi).1 hc.1

/-- What is below a context of a side belongs to the side. -/
theorem holds_of_mem_above (h : Tidy t own s) (hd : d ∈ s.tree.above c) (hi : s.Holds own i d) :
    s.Holds own i c := by
  revert hd
  refine h.linked.climb (motive := fun c => d ∈ s.tree.above c → s.Holds own i c) ?_ ?_ c
  · intro c hc hd
    rw [ContextTree.above_of_parent_none hc] at hd
    cases hd
  · intro c p hc ih hd
    rw [h.linked.above_eq hc, List.mem_cons] at hd
    refine h.child (c := p) ?_ (h.linked.mem_children.mpr hc)
    rcases hd with rfl | hd
    · exact hi
    · exact ih hd

section

variable [DecidableEq ι]

/-- An act of a side is an operation on a context of the side, or does nothing. -/
theorem effect (h : Tidy t own s) (ha : Within own i a) (call : Call) :
    (s.step call i a).2.tree = s.tree ∨
      ∃ c op, s.Holds own i c ∧ s.tree.Effect c op (s.step call i a).2.tree := by
  rcases find_holds ha (List.mem_cons_self ..) with hc | hc
  · exact .inr ⟨s.find i a.context, a.op.map (s.find i), hc,
      h.linked.effect_respond call (a.map (s.find i))⟩
  · left
    show (s.tree.respond call _).2 = s.tree
    rw [ContextTree.respond, if_neg]
    show ¬ s.find i a.context < s.tree.size
    omega

/-- An act leaves the contexts of other sides alone. -/
theorem node_step (h : Tidy t own s) (hap : t.Apart own) (ha : Within own i a) (call : Call)
    (hd : s.Holds own j d) (hij : j ≠ i) :
    (s.step call i a).2.tree.node d = s.tree.node d := by
  rcases h.effect ha call with heq | ⟨c, op, hc, he⟩
  · rw [heq]
  · obtain ⟨b, hb, hab⟩ := h.linked.node_of_effect he (h.lt_size_of_holds hap hd)
      (fun hdc => hij (h.disjoint hd (hdc ▸ hc)))
      (fun hdc => hij (h.disjoint hd (h.child hc hdc)))
    rw [hb, hab fun hup => hij (h.disjoint (h.holds_of_mem_above hup hd) hc)]

/-- An act at most dirties common contexts. -/
theorem common_step (h : Tidy t own s) (ha : Within own i a) (call : Call)
    (hd : t.Common own d) :
    ∃ b, (s.step call i a).2.tree.node d = { s.tree.node d with dirty := b } := by
  rcases h.effect ha call with heq | ⟨c, op, hc, he⟩
  · exact ⟨_, by rw [heq]⟩
  · obtain ⟨b, hb, -⟩ := h.linked.node_of_effect he (Nat.lt_of_lt_of_le hd.1 h.size_le)
      (fun hdc => h.not_holds_of_common hd i (hdc ▸ hc))
      (fun hdc => h.not_holds_of_common hd i (h.child hc hdc))
    exact ⟨b, hb⟩

/-- What is opened below a context of a side belongs to the side. -/
theorem child_step (h : Tidy t own s) (ha : Within own i a) (call : Call)
    (hc : (s.step call i a).2.Holds own j c) (hd : d ∈ ((s.step call i a).2.tree.node c).children) :
    (s.step call i a).2.Holds own j d := by
  have hchild : d ∈ (s.tree.node c).children ∨
      s.Holds own i c ∧ d = s.tree.size ∧ s.tree.size < (s.step call i a).2.tree.size := by
    rcases h.effect ha call with heq | ⟨x, op, hx, he⟩
    · exact .inl (heq ▸ hd)
    · refine (h.linked.mem_children_of_effect he hd).imp id ?_
      rintro ⟨rfl, hdx, hlt⟩
      exact ⟨hx, hdx, hlt⟩
  rw [holds_step] at hc ⊢
  rcases hchild with hd | ⟨hx, hdx, hlt⟩
  · rcases hc with hc | ⟨-, rfl, -⟩
    · exact .inl (h.child hc hd)
    · exact absurd (ContextTree.lt_size_of_mem_children hd) (Nat.lt_irrefl _)
  · rcases hc with hc | ⟨hj, -, -⟩
    · exact .inr ⟨h.disjoint hc hx, hdx, hlt⟩
    · exact .inr ⟨hj, hdx, hlt⟩

/-- The sides stay apart. -/
theorem step (h : Tidy t own s) (hap : t.Apart own) (ha : Within own i a) (call : Call) :
    Tidy t own (s.step call i a).2 := by
  have hsize : (s.step call i a).2.tree.size = s.tree.size ∨
      (s.step call i a).2.tree.size = s.tree.size + 1 := by
    rcases h.effect ha call with heq | ⟨c, op, -, he⟩
    · exact .inl (by rw [heq])
    · exact he.size_eq
  have hle := h.size_le
  have hnew : ∀ j, ¬ s.Holds own j s.tree.size := fun j hj =>
    Nat.lt_irrefl _ (h.lt_size_of_holds hap hj)
  refine ⟨h.linked.respond call _, by omega, ?_, ?_, ?_, ?_, ?_⟩
  · intro j c hc
    rcases (mem_opened_step ..).mp hc with hc | ⟨-, rfl, hlt⟩
    · have := h.opened_range hc
      omega
    · omega
  · intro c hct hcs
    by_cases hc : c < s.tree.size
    · obtain ⟨j, hj⟩ := h.cover hct hc
      exact ⟨j, (mem_opened_step ..).mpr (.inl hj)⟩
    · exact ⟨i, (mem_opened_step ..).mpr (.inr ⟨rfl, by omega, by omega⟩)⟩
  · intro j k c hj hk
    rw [holds_step] at hj hk
    rcases hj with hj | ⟨rfl, rfl, -⟩
    · rcases hk with hk | ⟨-, rfl, -⟩
      · exact h.disjoint hj hk
      · exact absurd hj (hnew j)
    · rcases hk with hk | ⟨rfl, -, -⟩
      · exact absurd hk (hnew k)
      · rfl
  · exact h.child_step ha call
  · intro c hc
    obtain ⟨b, hb⟩ := h.common hc
    obtain ⟨b', hb'⟩ := h.common_step ha call hc
    exact ⟨b', by rw [hb', hb]⟩

end

end Tidy

end Session

end ValueSchema

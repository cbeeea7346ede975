import Mathlib.Data.List.Induction
import ValueSchema.Proofs.ContextActs

/-!
# Marks and recomputation

A context can be asked for its validity in two ways: `ContextTree.isInvalid` reads the
marks, and `ContextTree.isValid` looks at everything still below.  A mark is never
removed, but what is below a context may be discarded.

One act keeps a simple law (`WellLinked.isInvalid_of_effect`): a context is invalid by
the marks if it was so before, or if it is so now by recomputation.  So the marks
remember whether recomputation has ever found the context invalid, and they agree with it
as long as no context is discarded that is invalid (`ContextTree.validity_after`).  They
do not agree otherwise (`ContextTree.discard_leaves_mark`).
-/

namespace ValueSchema

namespace ContextTree

variable {call : Call} {t u : ContextTree} {c d x : Nat} {op : ContextOp Nat}

/-! ## Recomputed validity -/

/-- By recomputation a context is invalid when it or a context below it was marked. -/
theorem WellLinked.isValid_eq_false_iff (w : t.WellLinked) (c : Nat) :
    t.isValid c = false ↔ ∃ d, t.AtOrBelow d c ∧ (t.node d).invalid = true := by
  refine w.descend (motive := fun c => t.isValid c = false ↔
    ∃ d, t.AtOrBelow d c ∧ (t.node d).invalid = true) (fun c ih => ?_) c
  have hstep : t.isValid c = false ↔
      (t.node c).invalid = true ∨ ∃ x ∈ (t.node c).children, t.isValid x = false := by
    rw [w.isValid_eq, Bool.and_eq_false_iff, List.all_eq_false]
    simp
  rw [hstep]
  constructor
  · rintro (h | ⟨x, hx, hv⟩)
    · exact ⟨c, t.atOrBelow_self c, h⟩
    · obtain ⟨d, hd, hi⟩ := (ih x hx).mp hv
      exact ⟨d, w.atOrBelow_iff_child.mpr (.inr ⟨x, hx, hd⟩), hi⟩
  · rintro ⟨d, hd, hi⟩
    rcases w.atOrBelow_iff_child.mp hd with rfl | ⟨x, hx, hdx⟩
    · exact .inl hi
    · exact .inr ⟨x, hx, (ih x hx).mpr ⟨d, hdx, hi⟩⟩

/-- Whatever recomputation finds, the marks know. -/
theorem WellLinked.isInvalid_of_isValid_eq_false (w : t.WellLinked) (h : t.isValid c = false) :
    t.isInvalid c = true := by
  obtain ⟨d, hd, hi⟩ := (w.isValid_eq_false_iff c).mp h
  have hm : (t.node d).marked = true := by rw [ContextNode.marked, hi, Bool.true_or]
  rw [isInvalid_eq]
  rcases hd with rfl | hd
  · exact hm
  · rw [ContextNode.marked, w.dirty_of_mem_above hm hd, Bool.or_true]

/-! ## One act -/

/-- A context is invalid by the marks if it was so before, or if it is so now by
recomputation. -/
theorem WellLinked.isInvalid_of_effect (w : t.WellLinked) (h : t.Effect c op u) (x : Nat) :
    u.isInvalid x = true ↔ t.isInvalid x = true ∨ u.isValid x = false := by
  have hu : u.WellLinked := w.of_effect h
  have hback : u.isValid x = false → u.isInvalid x = true := hu.isInvalid_of_isValid_eq_false
  have hsame : (u.node x).invalid = (t.node x).invalid ∧ (u.node x).dirty = (t.node x).dirty →
      (u.isInvalid x = true ↔ t.isInvalid x = true ∨ u.isValid x = false) := by
    intro hm
    have heq : u.isInvalid x = t.isInvalid x := by
      rw [isInvalid_eq, isInvalid_eq, ContextNode.marked, hm.1, hm.2, ContextNode.marked]
    rw [heq] at hback ⊢
    exact ⟨.inl, fun h => h.elim id hback⟩
  cases h with
  | unchanged => exact hsame ⟨rfl, rfl⟩
  | opened parent path h _ => exact hsame (marks_openAt h path x)
  | marked raised _ m =>
      have hnew : t.AtOrBelow c x → u.isValid x = false := fun hcx =>
        (hu.isValid_eq_false_iff x).mpr
          ⟨c, by rwa [AtOrBelow, m.above_eq], (m.invalid_iff c).mpr (.inr rfl)⟩
      rw [isInvalid_eq, isInvalid_eq, m.marked_iff]
      rw [isInvalid_eq, m.marked_iff] at hback
      exact ⟨fun h => h.imp id hnew, fun h => h.elim .inl hback⟩
  | discarded d h _ => exact hsame (w.marks_discard h x)

/-- What was below a context stays there, except what is at or below a context that is
discarded. -/
theorem WellLinked.atOrBelow_of_effect (w : t.WellLinked) (h : t.Effect c op u) {y : Nat}
    (hy : y < t.size)
    (hlost : ∀ d, d ∈ (t.node c).children → op = .discard d → ¬ t.AtOrBelow y d)
    (hyx : t.AtOrBelow y x) : u.AtOrBelow y x := by
  have hkeep : (∀ z, t.AtOrBelow y z → (u.node z).parent = (t.node z).parent) →
      u.AtOrBelow y x := fun hz => by rwa [AtOrBelow, above_congr hz]
  cases h with
  | unchanged => exact hyx
  | opened parent path h _ =>
      refine hkeep fun z hz => ?_
      have hzy := hz.le
      rw [parent_openAt h, if_neg (by omega)]
  | marked raised _ m => exact hkeep fun z _ => m.parent_eq z
  | discarded d hd hop =>
      refine hkeep fun z hz => ?_
      have hzd : z ≠ d := fun hzd => hlost d hd hop (hzd ▸ hz)
      rw [w.parent_discard hd, if_neg hzd]

/-- A context that is invalid by recomputation remains so, as long as only valid contexts
are discarded. -/
theorem WellLinked.isValid_of_effect (w : t.WellLinked) (h : t.Effect c op u)
    (hlost : ∀ d, d ∈ (t.node c).children → op = .discard d → t.isValid d = true)
    (hx : t.isValid x = false) : u.isValid x = false := by
  obtain ⟨y, hyx, hy⟩ := (w.isValid_eq_false_iff x).mp hx
  have hsize : y < t.size := Nat.lt_of_not_le fun hle => by
    rw [node_of_size_le hle] at hy
    cases hy
  refine ((w.of_effect h).isValid_eq_false_iff x).mpr ⟨y, ?_, (w.marks_of_effect h y).1 hy⟩
  refine w.atOrBelow_of_effect h hsize (fun d hd hop hyd => ?_) hyx
  have hvalid := hlost d hd hop
  rw [(w.isValid_eq_false_iff d).mpr ⟨y, hyd, hy⟩] at hvalid
  cases hvalid

/-! ## Every history -/

/-- Whenever one of the acts discards a child, the child is valid by recomputation. -/
def DiscardsOnlyValid (call : Call) (acts : List (ContextAct Nat)) : Prop :=
  ∀ past a, past ++ [a] <+: acts →
    ∀ d, d ∈ ((init.after call past).node a.context).children → a.op = .discard d →
      (init.after call past).isValid d = true

theorem isInvalid_init (c : Nat) : init.isInvalid c = false := by
  rw [isInvalid_eq]
  cases c <;> rfl

/-- The marks of a context remember whether recomputation has ever found it invalid. -/
theorem isInvalid_after_iff (call : Call) (acts : List (ContextAct Nat)) (c : Nat) :
    (init.after call acts).isInvalid c = true ↔
      ∃ past, past <+: acts ∧ (init.after call past).isValid c = false := by
  induction acts using List.reverseRecOn with
  | nil =>
      have hinit : init.isValid c = false → init.isInvalid c = true :=
        wellLinked_init.isInvalid_of_isValid_eq_false
      constructor
      · intro h
        rw [show init.after call [] = init from rfl, isInvalid_init] at h
        cases h
      · rintro ⟨past, hp, hv⟩
        obtain rfl := List.prefix_nil.mp hp
        exact hinit hv
  | append_singleton acts a ih =>
      have w := wellLinked_after call acts
      rw [after_concat, w.isInvalid_of_effect (w.effect_respond call a), ih, ← after_concat]
      constructor
      · rintro (⟨past, hp, hv⟩ | hv)
        · exact ⟨past, hp.trans (List.prefix_append ..), hv⟩
        · exact ⟨_, List.prefix_rfl, hv⟩
      · rintro ⟨past, hp, hv⟩
        rcases List.prefix_concat_iff.mp hp with rfl | hp
        · exact .inr hv
        · exact .inl ⟨past, hp, hv⟩

/-- If only valid contexts are discarded, what was found invalid once is found invalid
ever after. -/
theorem DiscardsOnlyValid.isValid_of_past {acts : List (ContextAct Nat)}
    (h : DiscardsOnlyValid call acts) {past : List (ContextAct Nat)} (hp : past <+: acts)
    (hv : (init.after call past).isValid c = false) :
    (init.after call acts).isValid c = false := by
  induction acts using List.reverseRecOn with
  | nil =>
      obtain rfl := List.prefix_nil.mp hp
      exact hv
  | append_singleton acts a ih =>
      rcases List.prefix_concat_iff.mp hp with rfl | hp
      · exact hv
      · have w := wellLinked_after call acts
        have hacts : DiscardsOnlyValid call acts := fun past a hpa =>
          h past a (hpa.trans (List.prefix_append ..))
        rw [after_concat]
        exact w.isValid_of_effect (w.effect_respond call a) (h acts a List.prefix_rfl)
          (ih hacts hp)

/-- After every history, the validity of every context is this.  By recomputation, the
context is invalid when it or a context still below it was marked.  By the marks, it is
invalid when recomputation has found it invalid now or at any time before.  So the two
agree if only valid contexts were discarded. -/
theorem validity_after (call : Call) (acts : List (ContextAct Nat)) (c : Nat) :
    ((init.after call acts).isValid c = false ↔
      ∃ d, (init.after call acts).AtOrBelow d c ∧
        ((init.after call acts).node d).invalid = true) ∧
    ((init.after call acts).isInvalid c = true ↔
      ∃ past, past <+: acts ∧ (init.after call past).isValid c = false) ∧
    (DiscardsOnlyValid call acts →
      (init.after call acts).isInvalid c = !(init.after call acts).isValid c) := by
  refine ⟨(wellLinked_after call acts).isValid_eq_false_iff c, isInvalid_after_iff call acts c,
    fun h => ?_⟩
  rw [Bool.eq_iff_iff, isInvalid_after_iff, Bool.not_eq_true']
  constructor
  · rintro ⟨past, hp, hv⟩
    exact h.isValid_of_past hp hv
  · intro hv
    exact ⟨acts, List.prefix_rfl, hv⟩

/-- Two children are opened and the first one is marked. -/
def firstOfTwoMarked : List (ContextAct Nat) :=
  [⟨0, .child (.field "name")⟩, ⟨0, .child (.field "age")⟩, ⟨1, .setInvalid⟩]

/-- The child that is not marked may be discarded. -/
theorem validity_after_firstOfTwoMarked :
    DiscardsOnlyValid {} (firstOfTwoMarked ++ [⟨0, .discard 2⟩]) ∧
      (init.after {} (firstOfTwoMarked ++ [⟨0, .discard 2⟩])).isInvalid 0 =
        !(init.after {} (firstOfTwoMarked ++ [⟨0, .discard 2⟩])).isValid 0 := by
  have hall : DiscardsOnlyValid {} (firstOfTwoMarked ++ [⟨0, .discard 2⟩]) := by
    intro past a hp d hd hop
    rcases List.prefix_concat_iff.mp hp with heq | hp
    · obtain ⟨rfl, ha⟩ := List.append_inj' heq rfl
      obtain rfl : a = ⟨0, .discard 2⟩ := List.singleton_inj.mp ha
      obtain rfl : 2 = d := ContextOp.discard.inj hop
      decide +kernel
    · have ha : a ∈ firstOfTwoMarked := hp.subset (by simp)
      simp only [firstOfTwoMarked, List.mem_cons, List.not_mem_nil, or_false] at ha
      rcases ha with rfl | rfl | rfl <;> cases hop
  exact ⟨hall, (validity_after {} _ 0).2.2 hall⟩

/-- A child is opened, marked and discarded. -/
def onlyChildDiscarded : List (ContextAct Nat) :=
  [⟨0, .child (.field "name")⟩, ⟨1, .setInvalid⟩, ⟨0, .discard 1⟩]

/-- The mark that the discarded child has left makes the root invalid, although
recomputation finds it valid. -/
theorem discard_leaves_mark :
    (init.after {} onlyChildDiscarded).isInvalid 0 = true ∧
      (init.after {} onlyChildDiscarded).isValid 0 = true := by
  decide +kernel

end ContextTree

end ValueSchema

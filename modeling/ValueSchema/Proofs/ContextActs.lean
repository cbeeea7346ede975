import ValueSchema.Call.Options
import ValueSchema.Proofs.ContextLinks

/-!
# Acts on contexts

A `ContextAct` is one use of a context by the steps of a call: a context is opened from
it, something is recorded on it, a child of it is discarded, or it is asked for what it
knows.  `ContextTree.respond` performs an act and gives the answer.  An act that cannot
be performed is refused and changes nothing: there is no context of this number, or what
is to be discarded is not a child of the context.

`ContextTree.Effect` lists what an act may do to a tree, so that an invariant of all
histories is proved with one case for each way to change a tree
(`WellLinked.effect_respond`, `WellLinked.after`).
-/

namespace ValueSchema

/-- What may be done with a context.  Other contexts are named by `κ`. -/
inductive ContextOp (κ : Type) where
  /-- Opens a context one segment further. -/
  | child (s : Segment)
  /-- Opens a context at the same path. -/
  | branch
  /-- Opens a context at the same path that belongs to no other one. -/
  | detached
  /-- Marks the context invalid. -/
  | setInvalid
  /-- Raises an issue. -/
  | addIssue (cause : Cause Issue) (own : Option String) (data : Value)
  /-- Takes a child away. -/
  | discard (child : κ)
  /-- Asks for validity, by the marks. -/
  | isInvalid
  /-- Asks for validity, recomputed. -/
  | isValid
  /-- Asks for the issues of the context and of those below it. -/
  | issues

/-- An operation on a context. -/
structure ContextAct (κ : Type) where
  /-- The context. -/
  context : κ
  /-- The operation. -/
  op : ContextOp κ

/-- An operation with the contexts it names replaced. -/
def ContextOp.map {κ μ : Type} (f : κ → μ) : ContextOp κ → ContextOp μ
  | .child s => .child s
  | .branch => .branch
  | .detached => .detached
  | .setInvalid => .setInvalid
  | .addIssue cause own data => .addIssue cause own data
  | .discard k => .discard (f k)
  | .isInvalid => .isInvalid
  | .isValid => .isValid
  | .issues => .issues

/-- The contexts that an operation names. -/
def ContextOp.named {κ : Type} : ContextOp κ → List κ
  | .discard k => [k]
  | _ => []

/-- An act with the contexts it names replaced. -/
def ContextAct.map {κ μ : Type} (f : κ → μ) (a : ContextAct κ) : ContextAct μ :=
  ⟨f a.context, a.op.map f⟩

/-- The contexts that an act names. -/
def ContextAct.named {κ : Type} (a : ContextAct κ) : List κ := a.context :: a.op.named

theorem ContextOp.map_congr {κ μ : Type} {f g : κ → μ} {op : ContextOp κ}
    (h : ∀ k ∈ op.named, f k = g k) : op.map f = op.map g := by
  cases op with
  | discard k => exact congrArg ContextOp.discard (h k (List.mem_singleton.mpr rfl))
  | _ => rfl

theorem ContextAct.map_congr {κ μ : Type} {f g : κ → μ} {a : ContextAct κ}
    (h : ∀ k ∈ a.named, f k = g k) : a.map f = a.map g := by
  rw [map, map, h a.context (List.mem_cons_self ..),
    ContextOp.map_congr fun k hk => h k (List.mem_cons_of_mem _ hk)]

theorem ContextAct.map_map {κ μ ν : Type} (f : κ → μ) (g : μ → ν) (a : ContextAct κ) :
    (a.map f).map g = a.map (g ∘ f) := by
  obtain ⟨c, op⟩ := a
  cases op <;> rfl

theorem ContextAct.named_map {κ μ : Type} (f : κ → μ) (a : ContextAct κ) :
    (a.map f).named = a.named.map f := by
  obtain ⟨c, op⟩ := a
  cases op <;> rfl

/-- What an act gives back. -/
inductive ContextAnswer where
  /-- Nothing. -/
  | done
  /-- A context at this path. -/
  | opened (path : Path)
  /-- A truth value. -/
  | flag (b : Bool)
  /-- Issues. -/
  | issues (is : List Issue)
  /-- The act could not be performed. -/
  | refused

namespace ContextTree

variable {call : Call} {t u : ContextTree} {c d x : Nat} {op : ContextOp Nat}

/-- The answer to opening a context. -/
def answerOpened (r : Nat × ContextTree) : ContextAnswer × ContextTree :=
  (.opened (r.2.pathOf r.1), r.2)

/-- Performs an operation on a context. -/
def perform (call : Call) (t : ContextTree) (c : Nat) : ContextOp Nat → ContextAnswer × ContextTree
  | .child s => answerOpened (t.child c s)
  | .branch => answerOpened (t.branch c)
  | .detached => answerOpened (t.detached c)
  | .setInvalid => (.done, t.setInvalid c)
  | .addIssue cause own data => (.done, t.raise c (call.issue cause (t.pathOf c) own data))
  | .discard d => if d ∈ (t.node c).children then (.done, t.discard c d) else (.refused, t)
  | .isInvalid => (.flag (t.isInvalid c), t)
  | .isValid => (.flag (t.isValid c), t)
  | .issues => (.issues (t.issues c), t)

/-- Performs an act, if there is such a context. -/
def respond (call : Call) (t : ContextTree) (a : ContextAct Nat) : ContextAnswer × ContextTree :=
  if a.context < t.size then t.perform call a.context a.op else (.refused, t)

/-- The issues that an operation raises on its context. -/
def raisedBy (call : Call) (t : ContextTree) (c : Nat) : ContextOp Nat → List Issue
  | .addIssue cause own data => [call.issue cause (t.pathOf c) own data]
  | _ => []

/-- The issues that an act raises on the context `x`. -/
def raised (call : Call) (t : ContextTree) (a : ContextAct Nat) (x : Nat) : List Issue :=
  if x = a.context ∧ x < t.size then t.raisedBy call x a.op else []

/-- The tree after some acts. -/
def after (call : Call) (t : ContextTree) (acts : List (ContextAct Nat)) : ContextTree :=
  acts.foldl (fun t a => (t.respond call a).2) t

theorem answerOpened_openAt {parent : Option Nat} (h : ∀ p, parent = some p → p < t.size)
    (path : Path) :
    answerOpened (t.openAt parent path) = (.opened path, (t.openAt parent path).2) := by
  rw [answerOpened, pathOf_eq, fst_openAt, node_openAt h, if_pos rfl]

/-- What an operation on the context `c` may do to a tree. -/
inductive Effect (t : ContextTree) (c : Nat) (op : ContextOp Nat) : ContextTree → Prop where
  /-- Nothing. -/
  | unchanged : Effect t c op t
  /-- A context is opened, below `c` or below nothing. -/
  | opened (parent : Option Nat) (path : Path) (h : ∀ p, parent = some p → p < t.size)
      (hc : ∀ p, parent = some p → p = c) : Effect t c op (t.openAt parent path).2
  /-- `c` is marked. -/
  | marked (raised : List Issue) (next : ContextTree) (m : t.MarkedAt c raised next) :
      Effect t c op next
  /-- A child of `c` is discarded. -/
  | discarded (d : Nat) (h : d ∈ (t.node c).children) (hop : op = .discard d) :
      Effect t c op (t.discard c d)

/-- An operation opens at most one context. -/
theorem Effect.size_eq (h : t.Effect c op u) : u.size = t.size ∨ u.size = t.size + 1 := by
  cases h with
  | unchanged => exact .inl rfl
  | opened => exact .inr (size_openAt ..)
  | marked _ _ m => exact .inl m.size_eq
  | discarded => exact .inl (size_discard ..)

namespace WellLinked

theorem effect_perform (w : t.WellLinked) (hc : c < t.size) (call : Call) (op : ContextOp Nat) :
    t.Effect c op (t.perform call c op).2 := by
  cases op with
  | child s => exact .opened (some c) _ (by rintro _ ⟨⟩; exact hc) (by rintro _ ⟨⟩; rfl)
  | branch => exact .opened (some c) _ (by rintro _ ⟨⟩; exact hc) (by rintro _ ⟨⟩; rfl)
  | detached => exact .opened none _ nofun nofun
  | setInvalid => exact .marked [] _ (w.markedAt_setInvalid hc)
  | addIssue cause own data => exact .marked [_] _ (w.markedAt_raise hc _)
  | discard d =>
      rw [perform]
      split
      · next h => exact .discarded d h rfl
      · exact .unchanged
  | isInvalid => exact .unchanged
  | isValid => exact .unchanged
  | issues => exact .unchanged

theorem effect_respond (w : t.WellLinked) (call : Call) (a : ContextAct Nat) :
    t.Effect a.context a.op (t.respond call a).2 := by
  rw [respond]
  split
  · next h => exact w.effect_perform h call a.op
  · exact .unchanged

/-- Every effect keeps the links. -/
theorem of_effect (w : t.WellLinked) (h : t.Effect c op u) : u.WellLinked := by
  cases h with
  | unchanged => exact w
  | opened parent path h _ => exact w.openAt h path
  | marked raised _ m => exact w.markedAt m
  | discarded d h _ => exact w.discard h

theorem respond (w : t.WellLinked) (call : Call) (a : ContextAct Nat) :
    (t.respond call a).2.WellLinked :=
  w.of_effect (w.effect_respond call a)

/-- An operation on `c` leaves other contexts alone, except that it may dirty those above
`c`. -/
theorem node_of_effect (w : t.WellLinked) (h : t.Effect c op u) (hd : d < t.size) (hne : d ≠ c)
    (hchild : d ∉ (t.node c).children) :
    ∃ b, u.node d = { t.node d with dirty := b } ∧ (d ∉ t.above c → b = (t.node d).dirty) := by
  cases h with
  | unchanged => exact ⟨_, rfl, fun _ => rfl⟩
  | opened parent path h hc =>
      refine ⟨_, ?_, fun _ => rfl⟩
      rw [node_openAt h, if_neg (Nat.ne_of_lt hd), if_neg fun hp => hne (hc d hp)]
  | marked raised _ m =>
      refine ⟨(t.node d).dirty || decide (d ∈ t.above c), ?_, fun hup => ?_⟩
      · rw [m.node_eq]
        simp [hne]
      · simp [hup]
  | discarded x hx _ =>
      have hdx : d ≠ x := fun h => hchild (h ▸ hx)
      refine ⟨_, ?_, fun _ => rfl⟩
      rw [w.node_discard hx, if_neg hdx, if_neg hne]

/-- A new child is the context that the operation has opened below `c`. -/
theorem mem_children_of_effect (w : t.WellLinked) (h : t.Effect c op u)
    (hd : d ∈ (u.node x).children) :
    d ∈ (t.node x).children ∨ x = c ∧ d = t.size ∧ t.size < u.size := by
  cases h with
  | unchanged => exact .inl hd
  | opened parent path h hc =>
      rw [children_openAt h, List.mem_append] at hd
      refine hd.imp id fun hd => ?_
      split at hd
      · next hp =>
          rw [size_openAt]
          exact ⟨hc x hp, List.mem_singleton.mp hd, Nat.lt_succ_self _⟩
      · cases hd
  | marked _ _ m => exact .inl (m.children_eq x ▸ hd)
  | discarded y hy _ =>
      rw [w.children_discard hy] at hd
      exact .inl (List.mem_filter.mp hd).1

/-- No mark is ever removed. -/
theorem marks_of_effect (w : t.WellLinked) (h : t.Effect c op u) (x : Nat) :
    ((t.node x).invalid = true → (u.node x).invalid = true) ∧
      ((t.node x).dirty = true → (u.node x).dirty = true) := by
  cases h with
  | unchanged => exact ⟨id, id⟩
  | opened parent path h _ =>
      rw [(marks_openAt h path x).1, (marks_openAt h path x).2]
      exact ⟨id, id⟩
  | marked raised _ m =>
      exact ⟨fun hx => (m.invalid_iff x).mpr (.inl hx), fun hx => (m.dirty_iff x).mpr (.inl hx)⟩
  | discarded d h _ =>
      rw [(w.marks_discard h x).1, (w.marks_discard h x).2]
      exact ⟨id, id⟩

theorem issues_perform (w : t.WellLinked) (hc : c < t.size) (call : Call) (op : ContextOp Nat)
    (x : Nat) :
    ((t.perform call c op).2.node x).issues =
      (t.node x).issues ++ if x = c then t.raisedBy call c op else [] := by
  have hopened : ∀ parent path, (∀ p, parent = some p → p = c) →
      ((answerOpened (t.openAt parent path)).2.node x).issues = (t.node x).issues := by
    intro parent path h
    have hlt : ∀ p, parent = some p → p < t.size := fun p hp => h p hp ▸ hc
    rw [answerOpened_openAt hlt, node_openAt hlt]
    split
    · next hx => rw [node_of_size_le (Nat.le_of_eq hx.symm)]
    · split <;> rfl
  have hnone : (t.node x).issues = (t.node x).issues ++ if x = c then [] else [] := by simp
  cases op with
  | child s => exact (hopened (some c) _ (by rintro _ ⟨⟩; rfl)).trans hnone
  | branch => exact (hopened (some c) _ (by rintro _ ⟨⟩; rfl)).trans hnone
  | detached => exact (hopened none _ (by rintro _ ⟨⟩)).trans hnone
  | setInvalid => exact congrArg ContextNode.issues ((w.markedAt_setInvalid hc).node_eq x)
  | addIssue cause own data =>
      exact congrArg ContextNode.issues ((w.markedAt_raise hc _).node_eq x)
  | discard d =>
      rw [perform]
      split
      · next h =>
          refine Eq.trans ?_ hnone
          rw [w.node_discard h]
          split
          · rfl
          · split <;> rfl
      · exact hnone
  | isInvalid => exact hnone
  | isValid => exact hnone
  | issues => exact hnone

/-- The issues of a context stand in the order in which they are raised. -/
theorem issues_respond (w : t.WellLinked) (call : Call) (a : ContextAct Nat) (x : Nat) :
    ((t.respond call a).2.node x).issues = (t.node x).issues ++ t.raised call a x := by
  rw [ContextTree.respond, raised]
  by_cases ha : a.context < t.size
  · rw [if_pos ha, w.issues_perform ha]
    by_cases hx : x = a.context
    · subst hx
      rw [if_pos rfl, if_pos ⟨rfl, ha⟩]
    · rw [if_neg hx, if_neg fun h => hx h.1]
  · have hx : ¬ (x = a.context ∧ x < t.size) := by omega
    rw [if_neg ha, if_neg hx, List.append_nil]

/-- Every history keeps the links. -/
theorem after (w : t.WellLinked) (call : Call) (acts : List (ContextAct Nat)) :
    (t.after call acts).WellLinked := by
  induction acts generalizing t with
  | nil => exact w
  | cons a acts ih => exact ih (w.respond call a)

end WellLinked

/-- Every tree that acts lead to is well linked. -/
theorem wellLinked_after (call : Call) (acts : List (ContextAct Nat)) :
    (init.after call acts).WellLinked :=
  wellLinked_init.after call acts

theorem after_concat (call : Call) (t : ContextTree) (acts : List (ContextAct Nat))
    (a : ContextAct Nat) :
    t.after call (acts ++ [a]) = ((t.after call acts).respond call a).2 := by
  simp [after]

end ContextTree

end ValueSchema

import Mathlib.Logic.Relation
import ValueSchema.Proofs.Run

/-!
# Immediate and deferred calls

A deferred call runs steps that an immediate call never reaches, and drops what they
say.  `Schema.immediate_of_deferred` is that nothing of this shows when the deferred call
gives a validation: the immediate call gives the same one, unless it meets a deferred
effect.

The proof is that a plan keeps a refinement of outcomes (`Plan.outcome_refines`), and that
the plan of a node does not depend on the mode (`Schema.plan_mode`).
-/

namespace ValueSchema

/-! ## Inside a schema -/

namespace Schema

/-- The second schema stands inside the first one, or is the definition that it names. -/
def Inner (arena : Option Arena) (s t : Schema) : Prop :=
  t ∈ s.kind.children ∨ ∃ id, s.kind = .lazy id ∧ arena.bind (·.get? id) = some t

/-- The second schema is found by going into the first one and into the definitions named
on the way. -/
def Reaches (arena : Option Arena) : Schema → Schema → Prop := Relation.ReflTransGen (Inner arena)

/-- Something holds of a schema and of everything that is found from it. -/
def Everywhere (arena : Option Arena) (P : Schema → Prop) (s : Schema) : Prop :=
  ∀ t, Reaches arena s t → P t

section Everywhere

variable {arena : Option Arena} {P : Schema → Prop} {s t : Schema}

theorem Everywhere.here (h : s.Everywhere arena P) : P s := h s .refl

theorem Everywhere.inside (h : s.Everywhere arena P) (ht : Inner arena s t) :
    t.Everywhere arena P :=
  fun u hu => h u (.head ht hu)

/-- What holds everywhere holds everywhere in the visits that a plan starts. -/
theorem Everywhere.started {call : Call} {t u : Visit}
    (h : t.schema.Everywhere call.options.arena P) (hu : (t.plan call).Starts u) :
    u.schema.Everywhere call.options.arena P := by
  refine h.inside ?_
  cases plan_starts hu with
  | inl hc => exact .inl hc.2
  | inr hl => exact .inr hl.2

/-- What holds of a schema and everywhere in those inside of it holds everywhere. -/
theorem Everywhere.of_inner (hs : P s) (h : ∀ t, Inner arena s t → t.Everywhere arena P) :
    s.Everywhere arena P := by
  intro u hu
  rcases Relation.ReflTransGen.cases_head hu with rfl | ⟨t, hinner, ht⟩
  · exact hs
  · exact h t hinner u ht

/-- A node that is not lazy has only its inner schemas inside of it. -/
theorem Everywhere.of_children (hlazy : ∀ id, s.kind ≠ .lazy id) (hs : P s)
    (h : ∀ t ∈ s.kind.children, t.Everywhere arena P) : s.Everywhere arena P := by
  refine .of_inner hs fun t hinner => ?_
  rcases hinner with hc | ⟨id, hk, -⟩
  · exact h t hc
  · exact absurd hk (hlazy id)

/-- Every item of a tuple has a place when nothing is discarded. -/
theorem Everywhere.slots_eq {items : List Schema} {rest : Option Schema}
    (h : s.Everywhere arena P) (hkept : ∀ t, P t → t.settings.discarded = false)
    (hk : s.kind = .tuple items rest) : slots items = items := by
  refine List.filter_eq_self.mpr fun t ht => ?_
  have hinner : Inner arena s t := by
    refine .inl ?_
    rw [hk]
    exact List.mem_append_left _ ht
  rw [hkept t (h.inside hinner).here]
  rfl

/-- A property of schemas that holds of everything inside holds everywhere. -/
theorem Everywhere.of_closed {Q : Schema → Prop} (hs : Q s)
    (hclosed : ∀ t u, Q t → Inner arena t u → Q u) (hP : ∀ t, Q t → P t) :
    s.Everywhere arena P := by
  intro t ht
  have hall : Q t := by
    induction ht with
    | refl => exact hs
    | tail _ hu ih => exact hclosed _ _ ih hu
  exact hP t hall

end Everywhere

/-- No deferred effect can be reached. -/
def IsImmediate (arena : Option Arena) (s : Schema) : Prop :=
  ∀ t, Reaches arena s t → ∀ inner effect, t.kind = .effects inner effect →
    effect.flavour = .immediate

/-- No deferred effect can be reached by the visits that a plan starts either. -/
theorem IsImmediate.started {call : Call} {t u : Visit}
    (h : t.schema.IsImmediate call.options.arena) (hu : (t.plan call).Starts u) :
    u.schema.IsImmediate call.options.arena :=
  Everywhere.started h hu

/-- A property of schemas that holds of everything inside shows that nothing deferred can be
reached. -/
theorem IsImmediate.of_closed {arena : Option Arena} {s : Schema} {P : Schema → Prop} (hs : P s)
    (hclosed : ∀ t u, P t → Inner arena t u → P u)
    (himm : ∀ t, P t → ∀ inner effect, t.kind = .effects inner effect →
      effect.flavour = .immediate) : IsImmediate arena s :=
  Everywhere.of_closed hs hclosed himm

/-! ## Plans in two calls -/

end Schema

/-- Two calls that tell a node the same, whatever their modes and caches are. -/
structure Call.Agrees (c d : Call) : Prop where
  abortEarly : c.options.abortEarly = d.options.abortEarly
  messages : c.options.messages = d.options.messages
  arena : c.options.arena = d.options.arena

namespace Call.Agrees

variable {c d : Call}

theorem issue_eq (h : c.Agrees d) : c.issue = d.issue := by
  funext cause path own data
  rw [Call.issue, Call.issue, h.messages]

theorem abortsEarly_eq (h : c.Agrees d) : c.abortsEarly = d.abortsEarly := by
  funext own
  rw [Call.abortsEarly, Call.abortsEarly, h.abortEarly]

end Call.Agrees

namespace Schema

section Plans

variable (node : Schema) {c d : Call} (h : c.Agrees d) (path : Path) (v : Value)

include h

theorem stops_agrees : node.stops c = node.stops d := by
  rw [stops, stops, h.abortsEarly_eq]

theorem checkedBy_agrees (stops : Bool) (es : List CheckEntry) :
    ∀ v, node.checkedBy c path stops es v = node.checkedBy d path stops es v := by
  induction es with
  | nil => exact fun _ => rfl
  | cons e es ih =>
      intro v
      rw [checkedBy, checkedBy]
      cases e.check.evaluate v with
      | pass => exact ih v
      | rewrite w => exact ih w
      | fail received =>
          dsimp only
          rw [ih v, h.issue_eq]

theorem checked_agrees (select : CheckKind → Bool) :
    node.checked c path select v = node.checked d path select v := by
  rw [checked, checked, h.abortsEarly_eq]
  exact node.checkedBy_agrees h path _ _ v

theorem finished_agrees (select : CheckKind → Bool) (convert : Value → Value) :
    node.finished c path select convert v = node.finished d path select convert v := by
  rw [finished, finished, node.checked_agrees h]

theorem leafValidation_agrees (l : Leaf) :
    node.leafValidation c path v l = node.leafValidation d path v l := by
  unfold leafValidation
  dsimp only
  rw [node.finished_agrees h, h.issue_eq]

theorem ownIssues_agrees : node.ownIssues c path v = node.ownIssues d path v := by
  unfold ownIssues
  rw [h.arena, h.issue_eq, node.stops_agrees h]
  simp only [node.checked_agrees h]

theorem containerPlan_agrees (hops : Nat) :
    node.containerPlan c path v hops = node.containerPlan d path v hops := by
  unfold containerPlan
  rw [h.arena, h.issue_eq, node.stops_agrees h, node.ownIssues_agrees h]
  simp only [node.finished_agrees h]

theorem lazyPlan_agrees (hops : Nat) (id : SchemaId) :
    lazyPlan c path v hops id = lazyPlan d path v hops id := by
  unfold lazyPlan
  rw [h.arena]

theorem effectPlan_agrees (hops : Nat) (inner : Schema) (effect : Effect)
    (hmode : c.mode = d.mode ∨ effect.flavour = .immediate) :
    node.effectPlan c path v hops inner effect = node.effectPlan d path v hops inner effect := by
  have hdeferred : (effect.flavour = .deferred ∧ c.mode = .immediate) ↔
      (effect.flavour = .deferred ∧ d.mode = .immediate) := by
    cases hmode with
    | inl hm => rw [hm]
    | inr hf => simp [hf]
  unfold effectPlan effectValidation
  simp only [hdeferred, h.issue_eq, h.abortsEarly_eq]

theorem mergeValidation_agrees (outputs : List Value) :
    node.mergeValidation c path v outputs = node.mergeValidation d path v outputs := by
  unfold mergeValidation
  rw [h.issue_eq]

/-- The plan of a node is the same in both calls, unless it is a deferred effect and the
modes differ. -/
theorem plan_agrees (hops : Nat) (hmode : c.mode = d.mode ∨
      ∀ inner effect, node.kind = .effects inner effect → effect.flavour = .immediate) :
    node.plan c path v hops = node.plan d path v hops := by
  have hc := node.containerPlan_agrees h path v hops
  unfold plan
  cases hk : node.kind with
  | leaf l => exact congrArg (fun o => Plan.done (.ok o)) (node.leafValidation_agrees h path v l)
  | array e => exact hc
  | set e => exact hc
  | tuple items rest => exact hc
  | object shape unknown => exact hc
  | record key value => exact hc
  | union members =>
      dsimp only
      rw [h.issue_eq]
  | intersection members =>
      have hm : node.mergeValidation c path v = node.mergeValidation d path v :=
        funext (node.mergeValidation_agrees h path v)
      dsimp only
      rw [node.stops_agrees h, hm]
  | effects inner effect =>
      exact node.effectPlan_agrees h path v hops inner effect
        (hmode.imp_right fun hf => hf inner effect hk)
  | lazy id => exact lazyPlan_agrees h path v hops id
  | _ => rfl

end Plans

/-- Without a deferred effect at the node, its plan is the same in both modes. -/
theorem plan_mode (node : Schema) (options : Options) (path : Path) (v : Value) (hops : Nat)
    (h : ∀ inner effect, node.kind = .effects inner effect → effect.flavour = .immediate) :
    node.plan ⟨options, .deferred⟩ path v hops = node.plan ⟨options, .immediate⟩ path v hops := by
  have hagrees : Call.Agrees ⟨options, .deferred⟩ ⟨options, .immediate⟩ := ⟨rfl, rfl, rfl⟩
  exact node.plan_agrees hagrees path v hops (.inr h)

end Schema

/-! ## What a deferred call says, an immediate call says too -/

/-- One answer refines another: it is the same whenever the other one is no misuse. -/
def Refines {α : Type} (a b : Except Misuse α) : Prop := ∀ r, b = .ok r → a = .ok r

namespace Refines

variable {α β : Type}

theorem refl (a : Except Misuse α) : Refines a a := fun _ h => h

theorem of_error {a : Except Misuse α} {e : Misuse} : Refines a (.error e) := nofun

theorem map {a b : Except Misuse α} (h : Refines a b) (f : α → β) :
    Refines (a.map f) (b.map f) := by
  intro r hr
  cases b with
  | error e => exact nomatch hr
  | ok o =>
      rw [h o rfl]
      exact hr

end Refines

namespace Outcome

theorem gather_refines (stops : Bool) {as bs : List Outcome} (h : List.Forall₂ Refines as bs) :
    Refines (gather stops as) (gather stops bs) := by
  induction h with
  | nil => exact .refl _
  | @cons a b as bs hab _ ih =>
      cases b with
      | error e => exact .of_error
      | ok o =>
          obtain rfl := hab o rfl
          cases o with
          | success w => exact ih.map _
          | failure is =>
              cases stops with
              | true => exact .refl _
              | false => exact ih.map _

theorem gatherMembers_refines (stops : Bool) {as bs : List Outcome}
    (h : List.Forall₂ Refines as bs) :
    Refines (gatherMembers .immediate stops as) (gatherMembers .deferred stops bs) := by
  show Refines (gather stops as) (gatherAll stops bs)
  unfold gatherAll
  cases misuse? bs with
  | some e => exact .of_error
  | none => exact gather_refines stops h

theorem choose_refines {as bs : List Outcome} (h : List.Forall₂ Refines as bs) :
    Refines (choose as) (choose bs) := by
  induction h with
  | nil => exact .refl _
  | @cons a b as bs hab _ ih =>
      cases b with
      | error e => exact .of_error
      | ok o =>
          obtain rfl := hab o rfl
          cases o with
          | success w => exact .refl _
          | failure is => exact ih.map _

end Outcome

namespace Plan

variable {immediate deferred : Visit → Outcome}

theorem forall_refines {ts : List Visit} (h : ∀ t ∈ ts, Refines (immediate t) (deferred t)) :
    List.Forall₂ Refines (ts.map immediate) (ts.map deferred) := by
  induction ts with
  | nil => exact .nil
  | cons t ts ih =>
      exact .cons (h t (List.mem_cons_self ..)) (ih fun u hu => h u (List.mem_cons_of_mem _ hu))

theorem forall_refines_raised (own : List Issue) {as bs : List Outcome}
    (h : List.Forall₂ Refines as bs) :
    List.Forall₂ Refines (Outcome.raised own ++ as) (Outcome.raised own ++ bs) := by
  cases own with
  | nil => exact h
  | cons i is => exact .cons (.refl _) h

/-- A plan keeps a refinement of the outcomes of the visits that it starts. -/
theorem outcome_refines :
    ∀ pl : Plan, (∀ t, pl.Starts t → Refines (immediate t) (deferred t)) →
      Refines (pl.outcome .immediate immediate) (pl.outcome .deferred deferred)
  | .done _, _ => .refl _
  | .andThen t next, h => by
      have ht := h t .first
      rw [outcome, outcome]
      cases hd : deferred t with
      | error e => exact .of_error
      | ok o =>
          rw [ht o hd]
          cases o with
          | success w => exact outcome_refines (next w) fun u hu => h u (.next hu)
          | failure is => exact .refl _
  | .parts own stops ts build, h =>
      (Outcome.gather_refines stops
        (forall_refines_raised own (forall_refines fun t ht => h t (.part ht)))).map _
  | .union ts refusal, h =>
      (Outcome.choose_refines (forall_refines fun t ht => h t (.member ht))).map _
  | .intersection stops ts build, h =>
      (Outcome.gatherMembers_refines stops (forall_refines fun t ht => h t (.joined ht))).map _

end Plan

/-- Without a deferred effect, the deferred outcome of a visit is also the immediate one,
unless it is a misuse. -/
theorem Visit.outcome_refines (options : Options) (t : Visit)
    (h : t.schema.IsImmediate options.arena) :
    Refines (t.outcome ⟨options, .immediate⟩) (t.outcome ⟨options, .deferred⟩) := by
  revert h
  induction t using Visit.induction ⟨options, .immediate⟩ with
  | h t ih =>
      intro h
      rw [Visit.outcome_eq, Visit.outcome_eq]
      have hplan : t.plan ⟨options, .deferred⟩ = t.plan ⟨options, .immediate⟩ :=
        t.schema.plan_mode options t.path t.value t.hops (h t.schema .refl)
      rw [hplan]
      exact Plan.outcome_refines _ fun u hu => ih u hu (h.started hu)

namespace Schema

/-- Without deferred effects and without a cache, a validation that a deferred call gives
is given by the immediate call too: the same output, or the same issues in the same
order. -/
theorem immediate_of_deferred (s : Schema) (options : Options) (v : Value)
    (hcache : options.cache = none) (himm : s.IsImmediate options.arena) (o : Validation)
    (h : (s.safeParse .deferred options v).result = .ok o) :
    (s.safeParse .immediate options v).result = .ok o := by
  rw [safeParse_uncached s _ options v hcache] at h ⊢
  exact (s.rootVisit ⟨options, .immediate⟩ v).outcome_refines options himm o h

/-- The definition of lists whose items are such lists again. -/
def nest : Schema := ⟨1, .array ⟨0, .lazy ⟨0, 0⟩, .empty, {}⟩, .empty, {}⟩

/-- An arena with one definition. -/
def nestArena : Arena := { id := 0, slots := [⟨"nest", some nest⟩] }

theorem nest_isImmediate : nest.IsImmediate (some nestArena) := by
  refine .of_closed (P := fun t => t = nest ∨ t = ⟨0, .lazy ⟨0, 0⟩, .empty, {}⟩) (.inl rfl) ?_ ?_
  · rintro t u (rfl | rfl) hu
    · cases hu with
      | inl hm => exact .inr (List.mem_singleton.mp hm)
      | inr hl => exact nomatch hl
    · cases hu with
      | inl hm => exact nomatch hm
      | inr hl =>
          obtain ⟨id, hk, hd⟩ := hl
          obtain rfl : (⟨0, 0⟩ : SchemaId) = id := Kind.lazy.inj hk
          exact .inl (Option.some.inj hd).symm
  · rintro t (rfl | rfl) inner effect hk
    · exact nomatch hk
    · exact nomatch hk

/-- A list of an empty list and a value that is no list. -/
def nestInput : Value := .array [.array [], .null]

/-- The refusal of the second item. -/
def nestRefusal : Validation :=
  .failure ⟨⟨.invalidType .array .null, ⟨[.index 1]⟩, "expected array, received null", .null⟩, []⟩

theorem nest_immediate_of_deferred :
    (nest.safeParse .deferred { arena := some nestArena } nestInput).result = .ok nestRefusal ∧
      (nest.safeParse .immediate { arena := some nestArena } nestInput).result =
        .ok nestRefusal := by
  have h : (nest.safeParse .deferred { arena := some nestArena } nestInput).result =
      .ok nestRefusal := rfl
  exact ⟨h, immediate_of_deferred nest _ _ rfl nest_isImmediate _ h⟩

end Schema

end ValueSchema

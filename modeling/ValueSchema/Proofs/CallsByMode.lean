import ValueSchema.Proofs.VisitCalls

/-!
# Calls in the two modes

A deferred call starts visits that an immediate call never makes, and so it calls functions of the
user's that an immediate call leaves alone.  `Visit.immediate_calls_le` says that it is never the
other way round: when a deferred call gives a validation, the immediate call calls at most as many
functions.  It calls as many when every node that is visited collects all issues and none is a
union, because then both make the same visits (`Visit.immediate_calls_eq`).

The proof compares the plans of a visit.  The node itself calls the same in both modes
(`Schema.ownCalls_mode`), and the visits of the immediate plan are some of those of the deferred
one (`Plan.made_sublist`), or all of them (`Plan.made_eq`).
-/

namespace ValueSchema

/-! ## The visits of one plan in two modes -/

namespace Plan

variable {visit immediate deferred : Visit → Outcome} {u : Visit}

theorem runIn_subset (mode : Mode) (stops : Bool) (visit : Visit → Outcome) (ts : List Visit) :
    runIn mode stops visit ts ⊆ ts := by
  cases mode with
  | immediate => exact (reachedIn_isPrefix stops visit ts).subset
  | deferred => exact fun _ h => h

theorem made_immediate (visit : Visit → Outcome) :
    ∀ pl : Plan, pl.made .immediate visit = pl.reached visit
  | .done _ => rfl
  | .andThen t next => by
      rw [made, reached]
      cases visit t with
      | error e => rfl
      | ok r =>
          cases r with
          | success w => exact congrArg (t :: ·) (made_immediate visit (next w))
          | failure is => rfl
  | .parts .. => rfl
  | .union .. => rfl
  | .intersection .. => rfl

theorem starts_of_made : ∀ {mode : Mode} {pl : Plan}, u ∈ pl.made mode visit → pl.Starts u
  | _, .done _, h => nomatch h
  | _, .andThen t next, h => by
      rw [made] at h
      cases List.mem_cons.mp h with
      | inl he => exact he ▸ .first
      | inr hm =>
          split at hm
          next w _ => exact .next (starts_of_made hm)
          next => cases hm
  | mode, .parts own stops ts build, h => by
      rw [made, descendedIn] at h
      split at h
      next => cases h
      next => exact .part (runIn_subset mode stops visit ts h)
  | .immediate, .union ts refusal, h => .member ((triedIn_isPrefix visit ts).subset h)
  | .deferred, .union ts refusal, h => .member h
  | mode, .intersection stops ts build, h => .joined (runIn_subset mode stops visit ts h)

/-- The first visit of a plan that is no misuse is none either. -/
theorem first_ok {mode : Mode} {visit : Visit → Outcome} {t : Visit} {next : Value → Plan}
    {o : Validation} (h : (andThen t next).outcome mode visit = .ok o) : ∃ r, visit t = .ok r := by
  rw [outcome] at h
  cases hv : visit t with
  | error e =>
      rw [hv] at h
      cases h
  | ok r => exact ⟨r, rfl⟩

/-- An immediate plan makes some of the visits of the deferred one, in the same order. -/
theorem made_sublist :
    ∀ {pl : Plan} {o : Validation}, (∀ t, pl.Starts t → Refines (immediate t) (deferred t)) →
      pl.outcome .deferred deferred = .ok o →
      (pl.made .immediate immediate).Sublist (pl.made .deferred deferred)
  | .done _, _, _, _ => .slnil
  | .andThen t next, o, h, ho => by
      have ht := h t .first
      obtain ⟨r, hd⟩ := first_ok ho
      rw [outcome] at ho
      rw [made, made]
      rw [hd] at ho
      rw [ht r hd, hd]
      cases r with
      | success w => exact (made_sublist (fun u hu => h u (.next hu)) ho).cons_cons t
      | failure is => exact .refl _
  | .parts own stops ts build, o, h, ho => by
      rw [made, made, descendedIn, descendedIn]
      split
      · exact .slnil
      · exact (reachedIn_isPrefix stops immediate ts).sublist
  | .union ts refusal, _, _, _ => (triedIn_isPrefix immediate ts).sublist
  | .intersection stops ts build, _, _, _ => (reachedIn_isPrefix stops immediate ts).sublist

/-- A plan that no visit ends early: it collects all issues, and has no union to decide. -/
def MakesAll : Plan → Prop
  | .done _ => True
  | .andThen _ next => ∀ w, (next w).MakesAll
  | .parts _ stops _ _ => stops = false
  | .union .. => False
  | .intersection stops _ _ => stops = false

/-- When nothing ends a plan early, both modes make the same visits. -/
theorem made_eq :
    ∀ {pl : Plan} {o : Validation}, (∀ t, pl.Starts t → Refines (immediate t) (deferred t)) →
      pl.outcome .deferred deferred = .ok o → pl.MakesAll →
      pl.made .immediate immediate = pl.made .deferred deferred
  | .done _, _, _, _, _ => rfl
  | .andThen t next, o, h, ho, hall => by
      have ht := h t .first
      obtain ⟨r, hd⟩ := first_ok ho
      rw [outcome] at ho
      rw [made, made]
      rw [hd] at ho
      rw [ht r hd, hd]
      cases r with
      | success w => exact congrArg (t :: ·) (made_eq (fun u hu => h u (.next hu)) ho (hall w))
      | failure is => rfl
  | .parts own stops ts build, o, h, ho, hall => by
      obtain rfl : stops = false := hall
      have himm := outcome_refines _ h o ho
      exact reachedIn_eq_self fun u hu => not_isMisuse_of_reached himm hu
  | .intersection stops ts build, o, h, ho, hall => by
      obtain rfl : stops = false := hall
      have himm := outcome_refines _ h o ho
      exact reachedIn_eq_self fun u hu => not_isMisuse_of_reached himm hu

/-- The visits of an immediate plan are no misuses in the deferred call either, when the deferred
plan is none. -/
theorem deferred_ok_of_made {pl : Plan} {o : Validation}
    (h : ∀ t, pl.Starts t → Refines (immediate t) (deferred t))
    (ho : pl.outcome .deferred deferred = .ok o) (hu : u ∈ pl.made .immediate immediate) :
    ∃ r, deferred u = .ok r := by
  rw [made_immediate] at hu
  have hnot : ¬ IsMisuse (pl.outcome .deferred deferred) := ho ▸ IsMisuse.not_ok o
  rw [outcome_isMisuse_iff h (outcome_refines pl h o ho)] at hnot
  cases hd : deferred u with
  | error e => exact absurd (.inl ⟨u, hu, e, hd⟩) hnot
  | ok r => exact ⟨r, rfl⟩

end Plan

namespace Schema

variable (node : Schema) (path : Path) (v : Value) (hops : Nat)

/-- A node that collects all issues and is no union has a plan that no visit ends early. -/
theorem plan_makesAll (call : Call) (hstops : node.stops call = false)
    (hunion : ∀ members, node.kind ≠ .union members) : (node.plan call path v hops).MakesAll := by
  have hcontainer : (node.containerPlan call path v hops).MakesAll := by
    unfold containerPlan
    split
    · trivial
    · exact hstops
  have hpass (t : Visit) : (Plan.pass t).MakesAll := fun _ => trivial
  unfold plan
  cases hk : node.kind with
  | leaf l => trivial
  | array e => exact hcontainer
  | set e => exact hcontainer
  | tuple items rest => exact hcontainer
  | object shape unknown => exact hcontainer
  | record key value => exact hcontainer
  | union members => exact absurd hk (hunion members)
  | intersection members => exact hstops
  | optional inner =>
      dsimp only
      split
      · trivial
      · exact hpass _
  | nullable inner =>
      dsimp only
      split
      · trivial
      · exact hpass _
  | default inner value => exact hpass _
  | brand inner name => exact hpass _
  | effects inner effect =>
      dsimp only
      unfold effectPlan
      split
      · trivial
      · split
        · exact hpass _
        · exact fun _ => trivial
  | pipeline input output => exact fun _ => hpass _
  | lazy id =>
      dsimp only
      unfold lazyPlan
      split
      · trivial
      · split
        · trivial
        · split
          · exact hpass _
          · trivial

/-! ## What a node calls in two modes -/

variable (options : Options) {immediate deferred : Visit → Outcome}

/-- A node without a deferred effect calls the same functions itself in both modes, when the
deferred call gives a validation. -/
theorem ownCalls_mode {o : Validation}
    (himm : ∀ inner effect, node.kind = .effects inner effect → effect.flavour = .immediate)
    (h : ∀ t, (node.plan ⟨options, .deferred⟩ path v hops).Starts t →
      Refines (immediate t) (deferred t))
    (ho : (node.plan ⟨options, .deferred⟩ path v hops).outcome .deferred deferred = .ok o) :
    node.ownCalls ⟨options, .immediate⟩ path v hops immediate =
      node.ownCalls ⟨options, .deferred⟩ path v hops deferred := by
  have hcontainer : node.containerCalls ⟨options, .immediate⟩ path v hops immediate =
      node.containerCalls ⟨options, .deferred⟩ path v hops deferred := by
    unfold containerCalls
    dsimp only
    cases hparts : node.parts? v options.arena with
    | none => rfl
    | some parts =>
        rw [plan_of_parts hparts, containerPlan, hparts] at h ho
        obtain ⟨r, hr⟩ := IsMisuse.ok_of_map ho
        have hrefines := Outcome.gather_refines (node.stops ⟨options, .deferred⟩)
          (Plan.forall_refines_raised (node.ownIssues ⟨options, .deferred⟩ path v)
            (Plan.forall_refines fun t ht => h t (.part ht)))
        have hagrees : Call.Agrees ⟨options, .immediate⟩ ⟨options, .deferred⟩ := ⟨rfl, rfl, rfl⟩
        rw [node.ownIssues_agrees hagrees, node.stops_agrees hagrees]
        dsimp only
        rw [hr, hrefines r hr]
        rfl
  unfold ownCalls
  cases hk : node.kind with
  | leaf l => rfl
  | effects inner effect =>
      have hflavour := himm inner effect hk
      have hd (mode : Mode) : ¬ (effect.flavour = .deferred ∧ mode = .immediate) := by
        rw [hflavour]
        exact fun hm => nomatch hm.1
      dsimp only
      unfold effectCalls
      rw [if_neg (hd _), if_neg (hd _)]
      cases effect with
      | preprocess flavour map => rfl
      | _ =>
          obtain ⟨next, hplan⟩ : ∃ next, node.plan ⟨options, .deferred⟩ path v hops =
              .andThen ⟨hops, inner, path, v⟩ next := by
            unfold plan effectPlan
            simp only [hk, if_neg (hd _)]
            exact ⟨_, rfl⟩
          rw [hplan] at h ho
          obtain ⟨r, hr⟩ := Plan.first_ok ho
          dsimp only
          rw [hr, h _ .first r hr]
  | _ => exact hcontainer

end Schema

/-! ## The calls of one visit in two modes -/

theorem visitCalls_le {call call' : Call} {ts us : List Visit} (hsub : ts.Sublist us)
    (h : ∀ t ∈ ts, t.calls call ≤ t.calls call') : visitCalls call ts ≤ visitCalls call' us := by
  induction hsub with
  | slnil => exact Nat.le_refl 0
  | cons u _ ih => exact Nat.le_add_left_of_le (ih h)
  | cons_cons u _ ih =>
      obtain ⟨hu, hts⟩ := List.forall_mem_cons.mp h
      exact Nat.add_le_add hu (ih hts)

theorem visitCalls_congr {call call' : Call} {ts : List Visit}
    (h : ∀ t ∈ ts, t.calls call = t.calls call') : visitCalls call ts = visitCalls call' ts :=
  congrArg List.sum (List.map_congr_left h)

namespace Visit

variable {options : Options} {t : Visit} {o : Validation}

/-- The visits that the deferred plan of a visit starts are refined by those of the immediate call,
when no deferred effect can be reached. -/
theorem started_refines (himm : t.schema.IsImmediate options.arena) {u : Visit}
    (hu : (t.plan ⟨options, .deferred⟩).Starts u) :
    Refines (u.outcome ⟨options, .immediate⟩) (u.outcome ⟨options, .deferred⟩) :=
  u.outcome_refines options (himm.started hu)

/-- What a visit calls in the two modes, when its deferred outcome is a validation: the node calls
the same itself. -/
theorem calls_of_deferred (himm : t.schema.IsImmediate options.arena)
    (ho : t.outcome ⟨options, .deferred⟩ = .ok o) :
    ∃ n, t.calls ⟨options, .immediate⟩ = n + visitCalls ⟨options, .immediate⟩
        ((t.plan ⟨options, .deferred⟩).made .immediate (Visit.outcome ⟨options, .immediate⟩)) ∧
      t.calls ⟨options, .deferred⟩ = n + visitCalls ⟨options, .deferred⟩
        ((t.plan ⟨options, .deferred⟩).made .deferred (Visit.outcome ⟨options, .deferred⟩)) := by
  have hplan : t.plan ⟨options, .deferred⟩ = t.plan ⟨options, .immediate⟩ :=
    t.schema.plan_mode options t.path t.value t.hops (himm t.schema .refl)
  have hown : t.ownCalls ⟨options, .immediate⟩ = t.ownCalls ⟨options, .deferred⟩ :=
    t.schema.ownCalls_mode t.path t.value t.hops options (himm t.schema .refl)
      (fun u hu => started_refines himm hu) (t.outcome_eq _ ▸ ho)
  refine ⟨t.ownCalls ⟨options, .deferred⟩, ?_, t.calls_eq _⟩
  rw [calls_eq, hown, hplan]

/-- An immediate visit calls at most as many functions as the deferred one. -/
theorem immediate_calls_le (options : Options) (t : Visit) :
    t.schema.IsImmediate options.arena → ∀ o, t.outcome ⟨options, .deferred⟩ = .ok o →
      t.calls ⟨options, .immediate⟩ ≤ t.calls ⟨options, .deferred⟩ := by
  induction t using Visit.induction ⟨options, .deferred⟩ with
  | h t ih =>
      intro himm o ho
      have hrefines := fun u hu => started_refines (u := u) himm hu
      obtain ⟨n, hi, hd⟩ := calls_of_deferred himm ho
      rw [outcome_eq] at ho
      rw [hi, hd]
      refine Nat.add_le_add_left (visitCalls_le (Plan.made_sublist hrefines ho) fun u hu => ?_) n
      obtain ⟨r, hr⟩ := Plan.deferred_ok_of_made hrefines ho hu
      exact ih u (Plan.starts_of_made hu) (himm.started (Plan.starts_of_made hu)) r hr

/-- A visit is run for another one: it is that one, or is made by one that is run. -/
def Runs (call : Call) : Visit → Visit → Prop :=
  Relation.ReflTransGen fun t u => u ∈ (t.plan call).made call.mode (Visit.outcome call)

/-- What holds everywhere in the schema of a visit holds in all visits that it makes. -/
theorem Runs.of_everywhere {call : Call} {P : Schema → Prop} {t u : Visit} (h : t.Runs call u)
    (hP : t.schema.Everywhere call.options.arena P) : P u.schema := by
  have hall : u.schema.Everywhere call.options.arena P := by
    induction h with
    | refl => exact hP
    | tail _ hu ih => exact ih.started (Plan.starts_of_made hu)
  exact hall.here

/-- Both modes call as many functions in a visit that makes no union and collects all issues. -/
theorem immediate_calls_eq (options : Options) (mode : Mode) (t : Visit) :
    t.schema.IsImmediate options.arena → ∀ o, t.outcome ⟨options, .deferred⟩ = .ok o →
      (∀ u, t.Runs ⟨options, mode⟩ u →
        u.schema.stops ⟨options, mode⟩ = false ∧ ∀ members, u.schema.kind ≠ .union members) →
      t.calls ⟨options, .immediate⟩ = t.calls ⟨options, .deferred⟩ := by
  induction t using Visit.induction ⟨options, .deferred⟩ with
  | h t ih =>
      intro himm o ho hruns
      have hrefines := fun u hu => started_refines (u := u) himm hu
      obtain ⟨n, hi, hd⟩ := calls_of_deferred himm ho
      obtain ⟨hstops, hunion⟩ := hruns t .refl
      rw [outcome_eq] at ho
      have hmade := Plan.made_eq hrefines ho
        (t.schema.plan_makesAll t.path t.value t.hops ⟨options, .deferred⟩ hstops hunion)
      rw [hi, hd, ← hmade]
      refine congrArg (n + ·) (visitCalls_congr fun u hu => ?_)
      obtain ⟨r, hr⟩ := Plan.deferred_ok_of_made hrefines ho hu
      refine ih u (Plan.starts_of_made hu) (himm.started (Plan.starts_of_made hu)) r hr
        fun w hw => hruns w (.head ?_ hw)
      -- The visit is made in the mode of the hypothesis too.
      cases mode with
      | immediate =>
          have hplan : t.plan ⟨options, .deferred⟩ = t.plan ⟨options, .immediate⟩ :=
            t.schema.plan_mode options t.path t.value t.hops (himm t.schema .refl)
          rwa [← hplan]
      | deferred => rwa [← hmade]

end Visit

namespace Schema

/-- Without deferred effects and without a cache, an immediate call calls at most as many functions
of the user's as a deferred call that gives a validation.  It calls as many when every node that is
visited collects all issues and none is a union. -/
theorem immediate_calls_le_deferred (s : Schema) (options : Options) (v : Value)
    (hcache : options.cache = none) (himm : s.IsImmediate options.arena) (o : Validation)
    (h : (s.safeParse .deferred options v).result = .ok o) :
    (s.safeParse .immediate options v).calls ≤ (s.safeParse .deferred options v).calls ∧
      ∀ mode, (∀ u, (s.rootVisit ⟨options, mode⟩ v).Runs ⟨options, mode⟩ u →
          u.schema.stops ⟨options, mode⟩ = false ∧ ∀ members, u.schema.kind ≠ .union members) →
        (s.safeParse .immediate options v).calls = (s.safeParse .deferred options v).calls := by
  have huncached : options.cache.bind (·.find? s.id v) = none := by
    rw [hcache]
    rfl
  rw [safeParse_uncached s _ options v hcache] at h
  rw [safeParse_calls huncached, safeParse_calls huncached]
  exact ⟨Visit.immediate_calls_le options _ himm o h,
    fun mode hruns => Visit.immediate_calls_eq options mode _ himm o h hruns⟩

/-- A value that a function refuses. -/
def refusedItem : Schema :=
  ⟨1, .effects ⟨0, .leaf .any, .empty, {}⟩ (.refine .immediate (fun _ => false) "refused"),
    .empty, {}⟩

/-- A list of such values. -/
def refusedItems : Schema := ⟨2, .array refusedItem, .empty, {}⟩

theorem refusedItems_everywhere {arena : Option Arena} {P : Schema → Prop} (hlist : P refusedItems)
    (hitem : P refusedItem) (hany : P ⟨0, .leaf .any, .empty, {}⟩) :
    refusedItems.Everywhere arena P := by
  refine .of_children (fun _ hk => by cases hk) hlist fun t ht => ?_
  obtain rfl := List.mem_singleton.mp ht
  refine .of_children (fun _ hk => by cases hk) hitem fun u hu => ?_
  obtain rfl := List.mem_singleton.mp hu
  exact .of_children (fun _ hk => by cases hk) hany fun w hw => by cases hw

theorem refusedItems_isImmediate {arena : Option Arena} : refusedItems.IsImmediate arena := by
  refine refusedItems_everywhere (fun _ _ hk => ?_) (fun _ _ hk => ?_) fun _ _ hk => ?_
  · cases hk
  · cases hk
    rfl
  · cases hk

/-- What is called for a list of two such values, when the call stops at its first issue or not. -/
def refusedCalls (mode : Mode) (stops : Bool) : Nat :=
  (refusedItems.safeParse mode { abortEarly := some stops } (.array [.null, .null])).calls

/-- Of two items that are refused, an immediate call that stops early tests one and a deferred call
both.  When all issues are collected, both calls test both. -/
theorem refusedItems_calls :
    (refusedCalls .immediate true = 1 ∧ refusedCalls .deferred true = 2) ∧
      refusedCalls .immediate true ≤ refusedCalls .deferred true ∧
      refusedCalls .immediate false = refusedCalls .deferred false := by
  have hstopping := immediate_calls_le_deferred refusedItems { abortEarly := some true }
    (.array [.null, .null]) rfl refusedItems_isImmediate _ rfl
  have hcollecting := immediate_calls_le_deferred refusedItems { abortEarly := some false }
    (.array [.null, .null]) rfl refusedItems_isImmediate _ rfl
  refine ⟨⟨rfl, rfl⟩, hstopping.1, hcollecting.2 .deferred fun u hu => ?_⟩
  exact hu.of_everywhere (P := fun t => t.stops ⟨{ abortEarly := some false }, .deferred⟩ = false ∧
    ∀ members, t.kind ≠ .union members)
    (refusedItems_everywhere ⟨rfl, nofun⟩ ⟨rfl, nofun⟩ ⟨rfl, nofun⟩)

end Schema

end ValueSchema

import ValueSchema.Proofs.Conformance
import ValueSchema.Proofs.Union

/-!
# Missing values

Whether a missing value passes a schema is decided twice: by `Schema.acceptsUndefinedIn`, which
only looks at the schema, and by parsing.  `Schema.AdmitsMissing` describes both.  It differs
in one place, in what it says about intersections.

* Parsing the missing value succeeds where `Schema.AdmitsMissing` lets an intersection through
  when all its members let the missing value through (`Visit.outcome_decides`).
* `Schema.acceptsUndefinedIn` lets no intersection through
  (`Schema.acceptsUndefinedIn_iff_admitsMissing`).

So the two agree on schemas without intersections, and everywhere else the decision errs on one
side only (`Schema.acceptsUndefinedIn_decides`).  An object whose field is an intersection
reports the key as missing although a missing value would pass
(`Schema.nicknameNode_reports_missing`).
-/

namespace ValueSchema

/-! ## The description -/

/-- Whether a missing value passes a node of a kind, given the inner schemas that let it
through and the names of definitions that do.  A default lets it through, and what is done to
an output is left out of account.  `joins` says whether an intersection lets anything through. -/
def Kind.AdmitsMissing {α : Type} (joins : Prop) (named : SchemaId → Prop) (admits : α → Prop) :
    Kind α → Prop
  | .leaf l => l.Admits .undefined
  | .union members => ∃ t ∈ members, admits t
  | .intersection members => joins ∧ ∀ t ∈ members, admits t
  | .optional _ => True
  | .default _ _ => True
  | .nullable inner => admits inner
  | .brand inner _ => admits inner
  | .effects inner _ => admits inner
  | .pipeline input _ => admits input
  | .lazy id => named id
  | _ => False

namespace Kind

variable {α β : Type} {joins joins' : Prop} {named named' : SchemaId → Prop}

theorem admitsMissing_map {admits : β → Prop} {f : α → β} {k : Kind α} :
    (k.map f).AdmitsMissing joins named admits ↔
      k.AdmitsMissing joins named fun a => admits (f a) := by
  cases k <;> simp [map, AdmitsMissing]

theorem AdmitsMissing.imp {admits admits' : α → Prop} {k : Kind α}
    (hjoins : ∀ members, k = .intersection members → joins → joins')
    (hnamed : ∀ id, k = .lazy id → named id → named' id)
    (hinner : ∀ t ∈ k.children, admits t → admits' t) (h : k.AdmitsMissing joins named admits) :
    k.AdmitsMissing joins' named' admits' := by
  cases k with
  | leaf l => exact h
  | union members =>
      obtain ⟨t, ht, hadmits⟩ := h
      exact ⟨t, ht, hinner t ht hadmits⟩
  | intersection members =>
      exact ⟨hjoins members rfl h.1, fun t ht => hinner t ht (h.2 t ht)⟩
  | optional inner => trivial
  | default inner value => trivial
  | nullable inner => exact hinner inner (List.mem_cons_self ..) h
  | brand inner name => exact hinner inner (List.mem_cons_self ..) h
  | effects inner effect => exact hinner inner (List.mem_cons_self ..) h
  | pipeline input output => exact hinner input (List.mem_cons_self ..) h
  | lazy id => exact hnamed id rfl h
  | _ => exact h.elim

theorem admitsMissing_congr {admits admits' : α → Prop} {k : Kind α}
    (hnamed : ∀ id, named id ↔ named' id) (hinner : ∀ t ∈ k.children, (admits t ↔ admits' t)) :
    k.AdmitsMissing joins named admits ↔ k.AdmitsMissing joins named' admits' :=
  ⟨.imp (fun _ _ => id) (fun id _ => (hnamed id).mp) fun t ht => (hinner t ht).mp,
    .imp (fun _ _ => id) (fun id _ => (hnamed id).mpr) fun t ht => (hinner t ht).mpr⟩

end Kind

namespace Schema

/-- Whether a missing value passes a schema, given the names of definitions that it passes. -/
def AdmitsMissingBy (joins : Prop) (named : SchemaId → Prop) : Schema → Prop :=
  fold fun _ kind => kind.AdmitsMissing joins named fun inner => inner.2

/-- Whether a missing value passes a schema, where at most `hops` lazy nodes are resolved one
inside the other. -/
def AdmitsMissing (arena : Option Arena) (joins : Prop) : Nat → Schema → Prop
  | 0 => AdmitsMissingBy joins fun _ => False
  | hops + 1 => AdmitsMissingBy joins fun id =>
      ∃ t, arena.bind (·.get? id) = some t ∧ AdmitsMissing arena joins hops t
termination_by structural hops => hops

variable {arena : Option Arena} {joins joins' : Prop} {named : SchemaId → Prop} {s : Schema}
  {hops : Nat}

theorem admitsMissingBy_iff :
    s.AdmitsMissingBy joins named ↔ s.kind.AdmitsMissing joins named (AdmitsMissingBy joins named) := by
  unfold AdmitsMissingBy
  rw [fold_eq, Kind.admitsMissing_map]

/-- The definition of a name lets a missing value through. -/
def NamesMissing (arena : Option Arena) (joins : Prop) (hops : Nat) (id : SchemaId) : Prop :=
  ∃ n t, hops = n + 1 ∧ arena.bind (·.get? id) = some t ∧ t.AdmitsMissing arena joins n

theorem admitsMissing_eq :
    AdmitsMissing arena joins hops = AdmitsMissingBy joins (NamesMissing arena joins hops) := by
  cases hops with
  | zero =>
      have hnamed : NamesMissing arena joins 0 = fun _ => False := by
        funext id
        simp [NamesMissing]
      rw [AdmitsMissing, hnamed]
  | succ n =>
      have hnamed : NamesMissing arena joins (n + 1) = fun id =>
          ∃ t, arena.bind (·.get? id) = some t ∧ t.AdmitsMissing arena joins n := by
        funext id
        simp [NamesMissing]
      rw [AdmitsMissing, hnamed]

theorem admitsMissing_iff :
    s.AdmitsMissing arena joins hops ↔
      s.kind.AdmitsMissing joins (NamesMissing arena joins hops)
        (AdmitsMissing arena joins hops) := by
  rw [admitsMissing_eq]
  exact admitsMissingBy_iff

/-- More lazy nodes may be resolved, and intersections may count for more. -/
theorem AdmitsMissing.mono {n m : Nat} (hnm : n ≤ m)
    (hs : s.Everywhere arena fun t =>
      ∀ members, t.kind = .intersection members → joins → joins') :
    s.AdmitsMissing arena joins n → s.AdmitsMissing arena joins' m := by
  induction n using Nat.strongRecOn generalizing m s with
  | ind n ihn =>
      induction s using Schema.induction with
      | h s ih =>
          intro h
          refine admitsMissing_iff.mpr ((admitsMissing_iff.mp h).imp hs.here ?_ fun t ht => ?_)
          · rintro id hk ⟨n', t, rfl, ht, hadmits⟩
            obtain ⟨m', rfl⟩ : ∃ m', m = m' + 1 := ⟨m - 1, by omega⟩
            exact ⟨m', t, rfl, ht,
              ihn n' (by omega) (by omega) (hs.inside (.inr ⟨id, hk, ht⟩)) hadmits⟩
          · exact ih t ht (hs.inside (.inl ht))

/-- It does not matter for a missing value what is changed in schemas besides their kinds. -/
theorem admitsMissing_mapped {f : Schema → Schema} {arena' : Option Arena}
    (hkind : ∀ t, (f t).kind = t.kind.map f)
    (hget : ∀ id, arena'.bind (·.get? id) = (arena.bind (·.get? id)).map f) :
    (f s).AdmitsMissing arena' joins hops ↔ s.AdmitsMissing arena joins hops := by
  induction hops using Nat.strongRecOn generalizing s with
  | ind hops ihops =>
      induction s using Schema.induction with
      | h s ih =>
          rw [admitsMissing_iff, admitsMissing_iff, hkind, Kind.admitsMissing_map]
          refine Kind.admitsMissing_congr (fun id => ?_) ih
          unfold NamesMissing
          simp only [hget, Option.map_eq_some_iff]
          constructor
          · rintro ⟨n, t, hn, ⟨u, hu, rfl⟩, ht⟩
            exact ⟨n, u, hn, hu, (ihops n (by omega)).mp ht⟩
          · rintro ⟨n, u, hn, hu, ht⟩
            exact ⟨n, f u, hn, ⟨u, hu, rfl⟩, (ihops n (by omega)).mpr ht⟩

/-! ## The decision without parsing -/

theorem anyAcceptsUndefinedBy_iff {follow : SchemaId → Bool} {members : List Schema} :
    anyAcceptsUndefinedBy follow members = true ↔
      ∃ t ∈ members, acceptsUndefinedBy follow t = true := by
  induction members with
  | nil => simp [anyAcceptsUndefinedBy]
  | cons s members ih => simp [anyAcceptsUndefinedBy, ih]

theorem acceptsUndefined_iff_admits {l : Leaf} :
    l.acceptsUndefined = true ↔ l.Admits .undefined := by
  refine ⟨fun h => ?_, acceptsUndefined_of_admits⟩
  cases l with
  | literal u =>
      cases u with
      | undefined => rfl
      | _ => cases h
  | enum us =>
      obtain ⟨u, hu, h⟩ := List.any_eq_true.mp h
      refine ⟨u, hu, ?_⟩
      cases u with
      | undefined => rfl
      | _ => cases h
  | any => trivial
  | unknown => trivial
  | never => rfl
  | undefined => rfl
  | _ => cases h

theorem acceptsUndefinedBy_iff_admitsMissingBy {follow : SchemaId → Bool} (s : Schema) :
    acceptsUndefinedBy follow s = true ↔ s.AdmitsMissingBy False fun id => follow id = true := by
  induction s using Schema.induction with
  | h s ih =>
      rw [admitsMissingBy_iff]
      obtain ⟨id, kind, checks, settings⟩ := s
      rw [acceptsUndefinedBy]
      cases kind with
      | leaf l => exact acceptsUndefined_iff_admits
      | union members =>
          refine anyAcceptsUndefinedBy_iff.trans (exists_congr fun t => and_congr_right fun ht => ?_)
          exact ih t ht
      | nullable inner => exact ih inner (List.mem_cons_self ..)
      | brand inner name => exact ih inner (List.mem_cons_self ..)
      | effects inner effect => exact ih inner (List.mem_cons_self ..)
      | pipeline input output => exact ih input (List.mem_cons_self ..)
      | _ => simp [kindAcceptsUndefinedBy, Kind.AdmitsMissing]

theorem acceptsUndefinedWithin_iff {a : Arena} :
    acceptsUndefinedWithin a hops s = true ↔ s.AdmitsMissing (some a) False hops := by
  induction hops generalizing s with
  | zero =>
      rw [acceptsUndefinedWithin, acceptsUndefinedBy_iff_admitsMissingBy, AdmitsMissing]
      simp
  | succ n ih =>
      have hfollow : (fun id => (a.get? id).any (acceptsUndefinedWithin a n) = true) =
          fun id => ∃ t, (some a).bind (·.get? id) = some t ∧ t.AdmitsMissing (some a) False n := by
        funext id
        simp [Option.any_eq_true, ih]
      rw [acceptsUndefinedWithin, acceptsUndefinedBy_iff_admitsMissingBy, AdmitsMissing, hfollow]

/-- The decision without parsing lets no intersection through, whatever its members are. -/
theorem acceptsUndefinedIn_iff_admitsMissing (call : Call) :
    s.acceptsUndefinedIn call.options.arena = true ↔
      s.AdmitsMissing call.options.arena False (hopsOf call) := by
  unfold acceptsUndefinedIn hopsOf
  cases call.options.arena with
  | none =>
      rw [acceptsUndefinedBy_iff_admitsMissingBy]
      simp [AdmitsMissing]
  | some a => exact acceptsUndefinedWithin_iff

end Schema

/-! ## Parsing the missing value -/

/-- Whether a missing value passes is decided by an outcome, unless this is a misuse.  The
output is the missing value again. -/
def Outcome.Decides (passes : Prop) : Outcome → Prop
  | .error _ => True
  | .ok (.success w) => w = .undefined ∧ passes
  | .ok (.failure _) => ¬ passes

namespace Outcome.Decides

variable {P Q : Prop} {o : Outcome}

theorem congr (h : P ↔ Q) (ho : o.Decides P) : o.Decides Q := by
  match o, ho with
  | .error _, _ => trivial
  | .ok (.success _), ho => exact ⟨ho.1, h.mp ho.2⟩
  | .ok (.failure _), ho => exact fun hq => ho (h.mpr hq)

theorem of_success (h : o.Decides P) {w : Value} (ho : o = .ok (.success w)) :
    w = .undefined ∧ P := by
  subst ho
  exact h

theorem of_failure (h : o.Decides P) {is : Issues} (ho : o = .ok (.failure is)) : ¬ P := by
  subst ho
  exact h

end Outcome.Decides

namespace Plan

variable {mode : Mode} {visit : Visit → Outcome} {ts : List Visit} {Q : Visit → Prop}

theorem pass_decides {t : Visit} {P : Prop} (h : (visit t).Decides P) :
    ((pass t).outcome mode visit).Decides P := by
  rwa [outcome_pass]

/-- A union lets the missing value through when one of its members does. -/
theorem union_decides {refusal : List Issue → Issue} (h : ∀ t ∈ ts, (visit t).Decides (Q t)) :
    ((union ts refusal).outcome mode visit).Decides (∃ t ∈ ts, Q t) := by
  rw [outcome]
  cases hc : Outcome.choose (ts.map visit) with
  | error e => trivial
  | ok r =>
      cases r with
      | ok w =>
          obtain ⟨before, t, after, rfl, -, ht⟩ := choose_ok_iff.mp hc
          have hmem : t ∈ before ++ t :: after := by simp
          obtain ⟨hw, hq⟩ := (h t hmem).of_success ht
          exact ⟨hw, t, hmem, hq⟩
      | error is =>
          rintro ⟨t, ht, hq⟩
          obtain ⟨js, hjs⟩ := (choose_failed_iff.mp hc).1 t ht
          exact (h t ht).of_failure hjs hq

/-- An intersection lets the missing value through when all its members do. -/
theorem intersection_decides {stops : Bool} {build : List Value → Validation}
    (hbuild : ∀ ws, (∀ w ∈ ws, w = .undefined) → build ws = .success .undefined)
    (h : ∀ t ∈ ts, (visit t).Decides (Q t)) :
    ((intersection stops ts build).outcome mode visit).Decides (∀ t ∈ ts, Q t) := by
  rw [outcome, conclude]
  cases hg : Outcome.gatherMembers mode stops (ts.map visit) with
  | error e => trivial
  | ok r =>
      obtain ⟨is, ws⟩ := r
      cases is with
      | nil =>
          have hws := Outcome.gatherMembers_nil_iff.mp hg
          have hmember : ∀ w ∈ ws, ∃ t ∈ ts, visit t = .ok (.success w) := by
            intro w hw
            refine List.mem_map.mp (hws ▸ List.mem_map.mpr ⟨w, hw, rfl⟩)
          have hall : ∀ t ∈ ts, Q t := by
            intro t ht
            have hmem : visit t ∈ ws.map fun w => .ok (.success w) := hws ▸ List.mem_map_of_mem ht
            obtain ⟨w, -, hw⟩ := List.mem_map.mp hmem
            exact ((h t ht).of_success hw.symm).2
          have hundefined : ∀ w ∈ ws, w = .undefined := by
            intro w hw
            obtain ⟨t, ht, hvisit⟩ := hmember w hw
            exact ((h t ht).of_success hvisit).1
          show Outcome.Decides _ (.ok (.after [] (build ws)))
          rw [hbuild ws hundefined]
          exact ⟨rfl, hall⟩
      | cons i is =>
          intro hall
          obtain ⟨js, hjs⟩ := Outcome.exists_failure_of_gather (Outcome.gather_of_gatherMembers hg)
          obtain ⟨t, ht, hvisit⟩ := List.mem_map.mp hjs
          exact (h t ht).of_failure hvisit (hall t ht)

end Plan

/-- A node that leaves the missing value as it is: without a function of the user's, without a
value in its place, and without a second schema. -/
structure Schema.Transparent (s : Schema) : Prop extends s.WellBuilt where
  noEffect : ∀ inner effect, s.kind ≠ .effects inner effect
  noDefault : ∀ inner value, s.kind ≠ .default inner value
  noPipeline : ∀ input output, s.kind ≠ .pipeline input output
  noCustom : ∀ e ∈ s.checks.entries, e.kind ≠ .custom

namespace Schema

variable {node : Schema} {call : Call} {path : Path} {hops : Nat} {mode : Mode}
  {visit : Visit → Outcome}

/-- A leaf that lets the missing value through has no checks but custom ones. -/
theorem supports_of_admits {l : Leaf} (h : l.Admits .undefined) {k : CheckKind}
    (hk : (Kind.leaf l : Kind Schema).supports k = true) : k = .custom := by
  cases l with
  | any => simpa [Kind.supports] using hk
  | unknown => simpa [Kind.supports] using hk
  | literal w => simpa [Kind.supports] using hk
  | enum ws => simpa [Kind.supports] using hk
  | never => simp [Kind.supports] at hk
  | undefined => simp [Kind.supports] at hk
  | _ => simp [Leaf.Admits] at h

theorem coerce_undefined (l : Leaf) : l.coerce .undefined = .undefined := rfl

theorem leaf_decides (hnode : node.Transparent) {l : Leaf} (hk : node.kind = .leaf l) :
    Outcome.Decides (l.Admits .undefined) (.ok (node.leafValidation call path .undefined l)) := by
  have hinput : (if node.settings.coerces then l.coerce .undefined else .undefined) =
      Value.undefined := by
    rw [coerce_undefined, ite_self]
  have hiff : ∀ w, node.leafValidation call path .undefined l = .success w ↔
      l.Admits .undefined ∧ w = .undefined := by
    intro w
    rw [leafValidation_success_iff, hinput, Leaf.refusal?_eq_none_iff]
    refine and_congr_right fun hadmits => ?_
    have hchecks : node.checks.entries = [] := by
      refine List.eq_nil_iff_forall_not_mem.mpr fun e he => hnode.noCustom e he ?_
      exact supports_of_admits hadmits (hk ▸ hnode.supported e he)
    have hcast : (if node.settings.casts then Value.undefined.cast else .undefined) =
        Value.undefined := ite_self _
    rw [hchecks]
    simp only [leftBy, Option.some.injEq, exists_eq_left', hcast]
    exact eq_comm
  cases ho : node.leafValidation call path .undefined l with
  | success w => exact ((hiff w).mp ho).symm
  | failure is =>
      intro hadmits
      cases ho.symm.trans ((hiff .undefined).mpr ⟨hadmits, rfl⟩)

/-- The missing value has no parts. -/
theorem parts?_undefined (arena : Option Arena) : node.parts? .undefined arena = none := by
  have hinput : node.containerInput .undefined = .undefined := by
    unfold containerInput
    cases node.kind <;> rfl
  unfold parts?
  rw [hinput]
  cases node.kind <;> rfl

theorem container_decides :
    ((node.containerPlan call path .undefined hops).outcome mode visit).Decides False := by
  rw [containerPlan, parts?_undefined]
  exact fun h => h

theorem mergeAll?_undefined {ws : List Value} (h : ∀ w ∈ ws, w = .undefined) :
    mergeAll? .undefined ws = some .undefined := by
  induction ws with
  | nil => rfl
  | cons w ws ih =>
      obtain ⟨rfl, hws⟩ := List.forall_mem_cons.mp h
      exact ih hws

theorem mergeValidation_undefined {ws : List Value} (h : ∀ w ∈ ws, w = .undefined) :
    node.mergeValidation call path .undefined ws = .success .undefined := by
  cases ws with
  | nil => rfl
  | cons w ws =>
      obtain ⟨rfl, hws⟩ := List.forall_mem_cons.mp h
      rw [mergeValidation, mergeAll?_undefined hws]

/-- A lazy node leaves the missing value to the definition that it names. -/
theorem lazy_decides {id : SchemaId}
    (h : ∀ u, (lazyPlan call path .undefined hops id).Starts u → u.value = .undefined →
      (visit u).Decides (u.schema.AdmitsMissing call.options.arena True u.hops)) :
    ((lazyPlan call path .undefined hops id).outcome mode visit).Decides
      (NamesMissing call.options.arena True hops id) := by
  unfold lazyPlan at h ⊢
  cases ha : call.options.arena with
  | none => trivial
  | some a =>
      rw [ha] at h
      cases hops with
      | zero => trivial
      | succ n =>
          dsimp only at h ⊢
          cases hs : a.get? id with
          | none => trivial
          | some s =>
              rw [hs] at h
              refine Plan.pass_decides (Outcome.Decides.congr ?_ (h _ .first rfl))
              simp [NamesMissing, hs]

/-- A node lets the missing value through as its kind says when the visits that it starts
do so. -/
theorem plan_decides (hnode : node.Transparent)
    (h : ∀ u, (node.plan call path .undefined hops).Starts u → u.value = .undefined →
      (visit u).Decides (u.schema.AdmitsMissing call.options.arena True u.hops)) :
    ((node.plan call path .undefined hops).outcome mode visit).Decides
      (node.AdmitsMissing call.options.arena True hops) := by
  refine Outcome.Decides.congr admitsMissing_iff.symm ?_
  unfold plan at h ⊢
  cases hk : node.kind with
  | leaf l => exact leaf_decides hnode hk
  | union members =>
      simp only [hk] at h
      refine (Plan.union_decides fun t ht => h t (.member ht) ?_).congr (by simp [Kind.AdmitsMissing])
      obtain ⟨s, -, rfl⟩ := List.mem_map.mp ht
      rfl
  | intersection members =>
      simp only [hk] at h
      refine (Plan.intersection_decides (fun ws hws => mergeValidation_undefined hws)
        fun t ht => h t (.joined ht) ?_).congr (by simp [Kind.AdmitsMissing])
      obtain ⟨s, -, rfl⟩ := List.mem_map.mp ht
      rfl
  | optional inner => exact ⟨rfl, trivial⟩
  | nullable inner =>
      simp only [hk] at h
      exact Plan.pass_decides (h _ .first rfl)
  | brand inner name =>
      simp only [hk] at h
      exact Plan.pass_decides (h _ .first rfl)
  | default inner value => exact absurd hk (hnode.noDefault inner value)
  | effects inner effect => exact absurd hk (hnode.noEffect inner effect)
  | pipeline input output => exact absurd hk (hnode.noPipeline input output)
  | lazy id =>
      simp only [hk] at h
      exact lazy_decides h
  | _ => exact container_decides

end Schema

/-- Parsing the missing value decides whether it passes, unless this is a misuse. -/
theorem Visit.outcome_decides (call : Call) (t : Visit) (hv : t.value = .undefined)
    (hs : t.schema.Everywhere call.options.arena Schema.Transparent) :
    (t.outcome call).Decides (t.schema.AdmitsMissing call.options.arena True t.hops) := by
  induction t using Visit.induction call with
  | h t ih =>
      rw [Visit.outcome_eq]
      obtain ⟨hops, s, path, v⟩ := t
      obtain rfl : v = .undefined := hv
      exact Schema.plan_decides hs.here fun u hu hundefined => ih u hu hundefined (hs.started hu)

namespace Schema

/-- A key whose schema is known to let the missing value through is not reported as absent. -/
theorem not_mem_absentKeys {shape : Entries Schema} (hkeys : shape.keys.Nodup) {k : String}
    {s : Schema} (hk : shape.get? k = some s) {arena : Option Arena}
    (haccepts : s.acceptsUndefinedIn arena = true) (input : Entries Value) :
    k ∉ absentKeys arena shape input := by
  intro hmem
  obtain ⟨⟨k', t⟩, he, rfl⟩ := List.mem_map.mp hmem
  obtain ⟨he, hmissing⟩ := List.mem_filter.mp he
  obtain rfl : s = t := Option.some.inj (hk.symm.trans (Entries.get?_of_mem hkeys he))
  simp [haccepts] at hmissing

/-- What the decision without parsing says about the missing value, compared to a call that
parses it with the same arena and does not end in a misuse.

* The call succeeds, and gives the missing value back, just when all members of an
  intersection, one of a union and so on let the missing value through.  The decision is the
  same, except that it lets no intersection through.
* So the call succeeds whenever the decision says so, and the two agree on a schema in which no
  intersection is found.
* Such a schema is never reported as absent by an object of which it is a field, if parsing the
  missing value in the place of the field succeeds. -/
theorem acceptsUndefinedIn_decides (s : Schema) (mode : Mode) (options : Options)
    (hcache : options.cache.bind (·.find? s.id .undefined) = none)
    (hs : s.Everywhere options.arena Transparent) (r : Validation)
    (hr : (s.safeParse mode options .undefined).result = .ok r) :
    ((∃ w, r = .success w) ↔ s.AdmitsMissing options.arena True (hopsOf ⟨options, mode⟩)) ∧
    (∀ w, r = .success w → w = .undefined) ∧
    (s.acceptsUndefinedIn options.arena = true ↔
      s.AdmitsMissing options.arena False (hopsOf ⟨options, mode⟩)) ∧
    (s.acceptsUndefinedIn options.arena = true → r = .success .undefined) ∧
    ((s.Everywhere options.arena fun t => ∀ members, t.kind ≠ .intersection members) →
      (s.acceptsUndefinedIn options.arena = true ↔ ∃ w, r = .success w) ∧
      ∀ (shape : Entries Schema) (k : String) (input : Entries Value) (hops : Nat) (path : Path)
        (w : Value), shape.keys.Nodup → shape.get? k = some s → hops ≤ hopsOf ⟨options, mode⟩ →
        Visit.outcome ⟨options, mode⟩ ⟨hops, s, path, .undefined⟩ = .ok (.success w) →
        k ∉ absentKeys options.arena shape input) := by
  have hstatic : s.acceptsUndefinedIn options.arena = true ↔
      s.AdmitsMissing options.arena False (hopsOf ⟨options, mode⟩) :=
    acceptsUndefinedIn_iff_admitsMissing ⟨options, mode⟩
  have hdecides := Visit.outcome_decides ⟨options, mode⟩ (s.rootVisit ⟨options, mode⟩ .undefined)
    rfl hs
  rw [safeParse_result s mode options .undefined hcache] at hr
  rw [hr] at hdecides
  have hparse : (∃ w, r = .success w) ↔
      s.AdmitsMissing options.arena True (hopsOf ⟨options, mode⟩) := by
    cases r with
    | success w => exact ⟨fun _ => hdecides.2, fun _ => ⟨w, rfl⟩⟩
    | failure is => exact ⟨fun ⟨w, hw⟩ => absurd hw nofun, fun h => absurd h hdecides⟩
  have houtput : ∀ w, r = .success w → w = .undefined := by
    rintro w rfl
    exact hdecides.1
  -- Without intersections it makes no difference what is said about them.
  have hagree (hjoins : s.Everywhere options.arena fun t => ∀ members, t.kind ≠ .intersection members)
      {n : Nat} (hn : n ≤ hopsOf ⟨options, mode⟩) (h : s.AdmitsMissing options.arena True n) :
      s.acceptsUndefinedIn options.arena = true := by
    refine hstatic.mpr (AdmitsMissing.mono hn (fun t ht members hk => ?_) h)
    exact absurd hk (hjoins t ht members)
  have hsound : s.acceptsUndefinedIn options.arena = true → ∃ w, r = .success w := by
    intro h
    refine hparse.mpr (AdmitsMissing.mono (Nat.le_refl _) (fun t _ members _ => ?_) (hstatic.mp h))
    exact False.elim
  refine ⟨hparse, houtput, hstatic, fun h => ?_, fun hjoins => ⟨⟨hsound, fun h => ?_⟩, ?_⟩⟩
  · obtain ⟨w, rfl⟩ := hsound h
    rw [houtput w rfl]
  · exact hagree hjoins (Nat.le_refl _) (hparse.mp h)
  · intro shape k input hops path w hkeys hk hn hw
    have hplace := Visit.outcome_decides ⟨options, mode⟩ ⟨hops, s, path, .undefined⟩ rfl hs
    exact not_mem_absentKeys hkeys hk (hagree hjoins hn (hplace.of_success hw).2) input

theorem transparent_of_empty {kind : Kind Schema} {id : Nat} {settings : Settings}
    (hobject : ∀ shape unknown, kind = .object shape unknown → shape.keys.Nodup)
    (heffect : ∀ inner effect, kind ≠ .effects inner effect)
    (hdefault : ∀ inner value, kind ≠ .default inner value)
    (hpipeline : ∀ input output, kind ≠ .pipeline input output) :
    Transparent ⟨id, kind, .empty, settings⟩ :=
  ⟨⟨nofun, hobject⟩, heffect, hdefault, hpipeline, nofun⟩

/-- A name for a text that may be missing. -/
def nicknameLazy : Schema := ⟨0, .lazy ⟨0, 0⟩, .empty, {}⟩

/-- A text that may be missing. -/
def nicknameText : Schema := ⟨2, .optional ⟨1, .leaf .string, .empty, {}⟩, .empty, {}⟩

/-- An arena that defines the name. -/
def nicknameArena : Arena := { id := 0, slots := [⟨"nickname", some nicknameText⟩] }

theorem nicknameText_transparent (arena : Option Arena) :
    nicknameText.Everywhere arena Transparent := by
  refine .of_children nofun (transparent_of_empty nofun nofun nofun nofun) ?_
  refine List.forall_mem_singleton.mpr (.of_children nofun ?_ nofun)
  exact transparent_of_empty nofun nofun nofun nofun

theorem nicknameLazy_transparent : nicknameLazy.Everywhere (some nicknameArena) Transparent := by
  refine .of_inner (transparent_of_empty nofun nofun nofun nofun) fun t ht => ?_
  rcases ht with hc | ⟨id, hk, hd⟩
  · cases hc
  · obtain rfl : (⟨0, 0⟩ : SchemaId) = id := Kind.lazy.inj hk
    obtain rfl : nicknameText = t := Option.some.inj hd
    exact nicknameText_transparent _

theorem nicknameLazy_decided :
    (nicknameLazy.safeParse .immediate { arena := some nicknameArena } .undefined).result =
        .ok (.success .undefined) ∧
      nicknameLazy.acceptsUndefinedIn (some nicknameArena) = true ∧
      nicknameLazy.AdmitsMissing (some nicknameArena) True 100 := by
  have hr : (nicknameLazy.safeParse .immediate { arena := some nicknameArena } .undefined).result =
      .ok (.success .undefined) := rfl
  obtain ⟨hparse, -, -, hsound, -⟩ := acceptsUndefinedIn_decides nicknameLazy .immediate
    { arena := some nicknameArena } rfl nicknameLazy_transparent _ hr
  exact ⟨hr, rfl, hparse.mp ⟨_, rfl⟩⟩

/-- A text that may be missing, and anything. -/
def nicknameJoin : Schema :=
  ⟨4, .intersection [nicknameText, ⟨3, .leaf .any, .empty, {}⟩], .empty, {}⟩

/-- An object with such a field. -/
def nicknameNode : Schema := ⟨5, .object ⟨[("nickname", nicknameJoin)]⟩ .strip, .empty, {}⟩

/-- The field lets the missing value through, and yet the object reports its key as missing. -/
theorem nicknameNode_reports_missing :
    nicknameJoin.Everywhere none Transparent ∧
      (nicknameJoin.safeParse .immediate {} .undefined).result = .ok (.success .undefined) ∧
      nicknameJoin.acceptsUndefinedIn none = false ∧
      (nicknameNode.safeParse .immediate {} (.record [])).result =
        .ok (.failure ⟨⟨.missingKeys ["nickname"], .root, "missing keys: nickname", .record []⟩,
          []⟩) := by
  refine ⟨.of_children nofun (transparent_of_empty nofun nofun nofun nofun) ?_, rfl, rfl, rfl⟩
  refine List.forall_mem_cons.mpr ⟨nicknameText_transparent none, ?_⟩
  refine List.forall_mem_singleton.mpr (.of_children nofun ?_ nofun)
  exact transparent_of_empty nofun nofun nofun nofun

end Schema

end ValueSchema

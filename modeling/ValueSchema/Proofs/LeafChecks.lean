import ValueSchema.Proofs.Success
import ValueSchema.Proofs.WellBuilt

/-!
# Checks of leaves

No check that a leaf supports changes the value, so the checks of a leaf do not see each other
(`Schema.evaluate_of_leaf`).  A call that collects all issues lists one for each check that fails
(`Schema.failures`), in the order of the registry, and has the output of the leaf if there is none
(`Schema.leaf_outcome`).

Hence the issues with and without some of the checks can be compared.
`Schema.leaf_checks_independent` does so for a leaf whose checks of a kind are removed, and for one
that gets a check of a new kind.
-/

namespace ValueSchema

/-! ## Issues of failed checks -/

/-- The measure for which a check refuses a value. -/
def CheckEntry.refused? (e : CheckEntry) (v : Value) : Option Value :=
  match e.check.evaluate v with
  | .fail received => some received
  | _ => none

/-- The kind of the failed check that a payload describes. -/
def Value.checkKind? (payload : Value) : Option CheckKind :=
  match payload.get? "check" with
  | some (.string name) => CheckKind.ofName? name
  | _ => none

/-- The kind of the failed check that an issue is about. -/
def Issue.checkKind? (i : Issue) : Option CheckKind := i.payload.checkKind?

theorem CheckFailure.checkKind?_toValue (f : CheckFailure) : f.toValue.checkKind? = some f.check := by
  have hname : CheckKind.ofName? f.check.name = some f.check := by cases f.check <;> rfl
  exact hname

theorem Kind.payload_checkCause {α : Type} (k : Kind α) (f : CheckFailure)
    (render : List Issue → List Value) :
    (k.checkCause f : Cause Issue).payload render = f.toValue := by
  unfold checkCause
  split <;> rfl

/-- More issues do not turn a failure into a success. -/
theorem Validation.after_append_of_failure {is : List Issue} {js : Issues} {w : Value}
    (h : after is (.success w) = .failure js) (more : List Issue) (r : Validation) :
    after (is ++ more) r = .failure ⟨js.head, js.tail ++ more⟩ := by
  cases is with
  | nil => cases h
  | cons i is =>
      obtain rfl := Validation.failure.inj h
      rfl

namespace Schema

/-- The issue of a node for a value that fails a check. -/
def failure? (node : Schema) (call : Call) (path : Path) (v : Value) (e : CheckEntry) :
    Option Issue :=
  (e.refused? v).map fun received =>
    call.issue (node.kind.checkCause ⟨e.kind, e.check.expected, received⟩) path e.message v

/-- One issue for each check of a node that a value fails, in the order of the registry. -/
def failures (node : Schema) (call : Call) (path : Path) (v : Value) : List Issue :=
  node.checks.entries.filterMap (node.failure? call path v)

/-- The value that a leaf looks at: the input, converted if the node coerces. -/
def leafInput (node : Schema) (l : Leaf) (v : Value) : Value :=
  if node.settings.coerces then l.coerce v else v

/-- The output of a leaf for a value that passes its checks. -/
def leafOutput (node : Schema) (v : Value) : Value := if node.settings.casts then v.cast else v

section Failures

variable {node : Schema} {call : Call} {path : Path} {v : Value} {e : CheckEntry} {i : Issue}

/-- The payload of an issue names the kind of the check. -/
theorem checkKind?_failure (h : node.failure? call path v e = some i) :
    i.checkKind? = some e.kind := by
  obtain ⟨received, -, rfl⟩ := Option.map_eq_some_iff.mp h
  have hpayload := node.kind.payload_checkCause ⟨e.kind, e.check.expected, received⟩
    Issue.listToValues
  exact (congrArg Value.checkKind? hpayload).trans (CheckFailure.checkKind?_toValue _)

/-- The issues are at the place of the node, and are about the value there. -/
theorem place_failures (h : i ∈ node.failures call path v) : i.path = path ∧ i.data = v := by
  obtain ⟨e, -, he⟩ := List.mem_filterMap.mp h
  obtain ⟨received, -, rfl⟩ := Option.map_eq_some_iff.mp he
  exact ⟨rfl, rfl⟩

theorem failures_eq_nil_iff :
    node.failures call path v = [] ↔ ∀ e ∈ node.checks.entries, e.refused? v = none := by
  rw [failures, List.filterMap_eq_nil_iff]
  exact forall₂_congr fun e _ => Option.map_eq_none_iff

/-- Without the checks of a kind, the issues about them are missing. -/
theorem failures_filter (k : CheckKind) :
    (node.checks.entries.filter (·.kind ≠ k)).filterMap (node.failure? call path v) =
      (node.failures call path v).filter (·.checkKind? ≠ some k) := by
  rw [failures, List.filter_filterMap, List.filterMap_filter]
  refine List.filterMap_congr fun e _ => ?_
  cases hi : node.failure? call path v e with
  | none => simp
  | some i => simp [checkKind?_failure hi, Option.filter]

end Failures

/-! ## One call -/

section Leaf

variable {s : Schema} {l : Leaf} {call : Call} {v : Value}

/-- No check that a leaf supports changes the value. -/
theorem evaluate_of_leaf (hk : s.kind = .leaf l) (hs : s.WellBuilt) {e : CheckEntry}
    (he : e ∈ s.checks.entries) (w : Value) : e.check.evaluate v ≠ .rewrite w := by
  intro hw
  obtain ⟨element, harray⟩ := Kind.array_of_supports (hs.supported e he) (Check.kind_of_rewrite hw)
  cases hk.symm.trans harray

theorem failure?_eq_none {node : Schema} {path : Path} {e : CheckEntry}
    (h : e.check.evaluate v = .pass) : node.failure? call path v e = none := by
  rw [failure?, CheckEntry.refused?, h]
  rfl

/-- Checks that do not change the value raise one issue for each that fails. -/
theorem checkedBy_eq_failures (node : Schema) (path : Path) {es : List CheckEntry}
    (hes : ∀ e ∈ es, ∀ w, e.check.evaluate v ≠ .rewrite w) :
    node.checkedBy call path false es v = (es.filterMap (node.failure? call path v), v) := by
  induction es with
  | nil => rfl
  | cons e es ih =>
      obtain ⟨he, hes⟩ := List.forall_mem_cons.mp hes
      rw [checkedBy]
      cases hv : e.check.evaluate v with
      | pass => rw [List.filterMap_cons_none (failure?_eq_none hv), ih hes]
      | rewrite w => exact absurd hv (he w)
      | fail received =>
          have hfailure : node.failure? call path v e = some
              (call.issue (node.kind.checkCause ⟨e.kind, e.check.expected, received⟩) path
                e.message v) := by
            rw [failure?, CheckEntry.refused?, hv]
            rfl
          rw [List.filterMap_cons_some hfailure, ih hes]
          rfl

/-- A value that a leaf stands for is validated by the checks alone. -/
theorem leafValidation_of_admits (path : Path) (hv : l.Admits (s.leafInput l v)) :
    s.leafValidation call path v l =
      s.finished call path (fun _ => true) s.leafOutput (s.leafInput l v) := by
  have hrefusal : l.refusal? s.settings (s.leafInput l v) = none := Leaf.refusal?_eq_none_iff.mpr hv
  unfold leafValidation
  dsimp only
  split
  next hrefused => cases hrefusal.symm.trans hrefused
  next => rfl

theorem outcome_of_leaf (hk : s.kind = .leaf l) (hops : Nat) (path : Path) :
    Visit.outcome call ⟨hops, s, path, v⟩ = .ok (s.leafValidation call path v l) := by
  rw [Visit.outcome_eq, Visit.plan, plan, hk]
  rfl

/-- What a visit of a leaf amounts to that collects all issues. -/
theorem leaf_outcome (hk : s.kind = .leaf l) (hs : s.WellBuilt) (hall : s.stops call = false)
    (hv : l.Admits (s.leafInput l v)) (hops : Nat) (path : Path) :
    Visit.outcome call ⟨hops, s, path, v⟩ =
      .ok (.after (s.failures call path (s.leafInput l v))
        (.success (s.leafOutput (s.leafInput l v)))) := by
  have hchecked : s.checked call path (fun _ => true) (s.leafInput l v) =
      (s.failures call path (s.leafInput l v), s.leafInput l v) := by
    have hstops : call.abortsEarly s.settings.abortEarly = false := hall
    rw [checked, hstops, List.filter_true]
    exact checkedBy_eq_failures s path fun e he w => evaluate_of_leaf hk hs he w
  rw [outcome_of_leaf hk, leafValidation_of_admits path hv, finished, hchecked]

/-- What a visit of a leaf amounts to otherwise. -/
theorem leaf_outcome_refused {t : Schema} (hk : s.kind = .leaf l) (ht : t.kind = .leaf l)
    (hsettings : t.settings = s.settings) (hv : ¬l.Admits (s.leafInput l v)) (hops : Nat)
    (path : Path) :
    Visit.outcome call ⟨hops, t, path, v⟩ = Visit.outcome call ⟨hops, s, path, v⟩ := by
  rw [outcome_of_leaf hk, outcome_of_leaf ht]
  unfold leafValidation
  rw [hsettings]
  dsimp only
  split
  next => rfl
  next hadmitted => exact absurd (Leaf.refusal?_eq_none_iff.mp hadmitted) hv

end Leaf

/-! ## Leaves with other checks -/

theorem apply_withoutCheck (s : Schema) (k : CheckKind) :
    (s.apply (.withoutCheck k)).Makes fun t =>
      t.kind = s.kind ∧ t.settings = s.settings ∧
        t.checks.entries = s.checks.entries.filter (·.kind ≠ k) := by
  dsimp only [apply]
  split
  next => exact fun _ => ⟨rfl, rfl, rfl⟩
  next hnone =>
      refine Build.makes_pure ⟨rfl, rfl, (List.filter_eq_self.mpr fun e he => ?_).symm⟩
      refine decide_eq_true fun hk => hnone ?_
      exact List.any_eq_true.mpr ⟨e, he, decide_eq_true hk⟩

/-- A check of a new kind goes to the end of the registry. -/
theorem addCheck_of_new (s : Schema) (c : Check) (hnew : s.checks.hasKind c.kind = false) :
    (s.addCheck c).Makes fun t =>
      t.kind = s.kind ∧ t.settings = s.settings ∧
        t.checks.entries =
          s.checks.entries ++ if s.kind.supports c.kind then [⟨c, none⟩] else [] := by
  unfold addCheck
  split
  next =>
      refine fun _ => ⟨rfl, rfl, ?_⟩
      show (s.checks.add ⟨c, none⟩ _).entries = _
      have hnew : s.checks.hasKind (CheckEntry.kind ⟨c, none⟩) = false := hnew
      rw [Checks.add, hnew, Bool.and_false, if_neg Bool.false_ne_true]
  next => exact Build.makes_pure ⟨rfl, rfl, (List.append_nil _).symm⟩

section Compared

variable {s : Schema} {l : Leaf} {mode : Mode} {options : Options} {v : Value}

variable (hk : s.kind = .leaf l) (hs : s.WellBuilt) (hall : s.stops ⟨options, mode⟩ = false)

include hk hall

/-- What a call amounts to that is made of a leaf with other checks. -/
theorem result_of_checks {t : Schema} (hkind : t.kind = s.kind)
    (hsettings : t.settings = s.settings)
    (hsupported : ∀ e ∈ t.checks.entries, s.kind.supports e.kind = true)
    (hv : l.Admits (s.leafInput l v)) (hcache : options.Truthful t mode v) :
    (t.safeParse mode options v).result =
      .ok (.after
        (t.checks.entries.filterMap (s.failure? ⟨options, mode⟩ .root (s.leafInput l v)))
        (.success (s.leafOutput (s.leafInput l v)))) := by
  have hleaf : t.kind = .leaf l := hkind.trans hk
  have ht : t.WellBuilt := by
    refine ⟨fun e he => hkind ▸ hsupported e he, fun shape unknown hobject => ?_⟩
    cases hleaf.symm.trans hobject
  have hstops : t.stops ⟨options, mode⟩ = false := by
    rw [stops, hsettings]
    exact hall
  have hinput : t.leafInput l v = s.leafInput l v := by rw [leafInput, hsettings, leafInput]
  have houtput (w : Value) : t.leafOutput w = s.leafOutput w := by
    rw [leafOutput, hsettings, leafOutput]
  have hfailure (w : Value) :
      t.failure? ⟨options, mode⟩ .root w = s.failure? ⟨options, mode⟩ .root w := by
    funext e
    rw [failure?, hkind, failure?]
  rw [safeParse_of_truthful hcache, rootVisit,
    leaf_outcome hleaf ht hstops (hinput.symm ▸ hv), hinput, houtput, failures, hfailure]

include hs

/-- Without the checks of a kind there are the other issues. -/
theorem result_withoutCheck (hv : l.Admits (s.leafInput l v)) (k : CheckKind) :
    (s.apply (.withoutCheck k)).Makes fun t =>
      options.Truthful t mode v →
        (t.safeParse mode options v).result =
          .ok (.after ((s.failures ⟨options, mode⟩ .root (s.leafInput l v)).filter
              (·.checkKind? ≠ some k))
            (.success (s.leafOutput (s.leafInput l v)))) := by
  intro n
  obtain ⟨hkind, hsettings, hentries⟩ := apply_withoutCheck s k n
  generalize ((s.apply (.withoutCheck k)) n).1 = t at hkind hsettings hentries
  intro ht
  have hsupported : ∀ e ∈ t.checks.entries, s.kind.supports e.kind = true := fun e he =>
    hs.supported e (List.mem_filter.mp (hentries ▸ he)).1
  rw [result_of_checks hk hall hkind hsettings hsupported hv ht, hentries, failures_filter]

/-- With a check of a new kind there are the same issues first. -/
theorem result_addCheck (hcache : options.Truthful s mode v) {c : Check}
    (hnew : s.checks.hasKind c.kind = false) :
    (s.addCheck c).Makes fun t =>
      options.Truthful t mode v → ∀ is, (s.safeParse mode options v).result = .ok (.failure is) →
        ∃ more, (t.safeParse mode options v).result =
          .ok (.failure ⟨is.head, is.tail ++ more⟩) := by
  intro n
  obtain ⟨hkind, hsettings, hentries⟩ := addCheck_of_new s c hnew n
  generalize ((s.addCheck c) n).1 = t at hkind hsettings hentries
  intro ht is his
  by_cases hv : l.Admits (s.leafInput l v)
  · have hsupported : ∀ e ∈ t.checks.entries, s.kind.supports e.kind = true := by
      intro e he
      rw [hentries] at he
      rcases List.mem_append.mp he with he | he
      · exact hs.supported e he
      · split at he
        next hsupports => exact List.mem_singleton.mp he ▸ hsupports
        next => cases he
    rw [result_of_checks hk hall rfl rfl hs.supported hv hcache] at his
    rw [result_of_checks hk hall hkind hsettings hsupported hv ht, hentries, List.filterMap_append]
    exact ⟨_, congrArg Except.ok (Validation.after_append_of_failure (Except.ok.inj his) _ _)⟩
  · refine ⟨[], ?_⟩
    rw [safeParse_of_truthful ht, rootVisit, leaf_outcome_refused hk (hkind.trans hk) hsettings hv,
      List.append_nil]
    rwa [safeParse_of_truthful hcache] at his

end Compared

/-- The checks of a leaf do not depend on each other.  Where all issues of a value of the right type
are collected, there is one for each check that fails, at the place of the leaf and about the value
that the checks see, and the leaf succeeds if there is none.  Hence a leaf without the checks of a
kind lists the other issues.  A leaf with a check of a new kind lists all issues of the leaf without
it, also for a value of a wrong type. -/
theorem leaf_checks_independent (s : Schema) (l : Leaf) (mode : Mode) (options : Options)
    (v : Value) (hk : s.kind = .leaf l) (hs : s.WellBuilt) (hall : s.stops ⟨options, mode⟩ = false)
    (hcache : options.Truthful s mode v) :
    (l.Admits (s.leafInput l v) →
      let call : Call := ⟨options, mode⟩
      let w := s.leafInput l v
      (s.safeParse mode options v).result =
        .ok (.after (s.failures call .root w) (.success (s.leafOutput w))) ∧
      (∀ hops path,
        Visit.outcome call ⟨hops, s, path, v⟩ =
          .ok (.after (s.failures call path w) (.success (s.leafOutput w))) ∧
        (∀ i ∈ s.failures call path w, i.path = path ∧ i.data = w) ∧
        (s.failures call path w = [] ↔ ∀ e ∈ s.checks.entries, e.refused? w = none)) ∧
      ∀ k, (s.apply (.withoutCheck k)).Makes fun t =>
        options.Truthful t mode v →
          (t.safeParse mode options v).result =
            .ok (.after ((s.failures call .root w).filter (·.checkKind? ≠ some k))
              (.success (s.leafOutput w)))) ∧
    ∀ c, s.checks.hasKind c.kind = false → (s.addCheck c).Makes fun t =>
      options.Truthful t mode v → ∀ is, (s.safeParse mode options v).result = .ok (.failure is) →
        ∃ more, (t.safeParse mode options v).result =
          .ok (.failure ⟨is.head, is.tail ++ more⟩) := by
  refine ⟨fun hv => ⟨?_, fun hops path => ⟨?_, fun i hi => ?_, ?_⟩, fun k => ?_⟩, fun c hnew => ?_⟩
  · exact result_of_checks hk hall rfl rfl hs.supported hv hcache
  · exact leaf_outcome hk hs hall hv hops path
  · exact place_failures hi
  · exact failures_eq_nil_iff
  · exact result_withoutCheck hk hs hall hv k
  · exact result_addCheck hk hs hall hcache hnew

/-- Big integers from five on that are even. -/
def evenFromFive : Schema :=
  ⟨0, .leaf .bigint, ⟨[⟨.min (.bigint (.clamp 5)) true, none⟩,
    ⟨.multiple (.bigint (.clamp 2)), none⟩]⟩, {}⟩

/-- Three fails both checks, and only the second one when the bound is removed.  Another check does
not make it pass. -/
theorem three_fails_evenFromFive :
    ∃ i j, i.checkKind? = some CheckKind.min ∧ j.checkKind? = some CheckKind.multiple ∧
      (evenFromFive.safeParse .immediate {} (.bigint (.clamp 3))).result = .ok (.failure ⟨i, [j]⟩) ∧
      ((evenFromFive.apply (.withoutCheck .min)).Makes fun t =>
        (t.safeParse .immediate {} (.bigint (.clamp 3))).result = .ok (.failure ⟨j, []⟩)) ∧
      ((evenFromFive.addCheck (.custom "any" fun _ => true)).Makes fun t =>
        ∃ more, (t.safeParse .immediate {} (.bigint (.clamp 3))).result =
          .ok (.failure ⟨i, j :: more⟩)) := by
  have hbuilt : evenFromFive.WellBuilt :=
    ⟨List.forall_mem_cons.mpr ⟨rfl, List.forall_mem_singleton.mpr rfl⟩, nofun⟩
  obtain ⟨hlisted, hadded⟩ := leaf_checks_independent evenFromFive .bigint .immediate {}
    (.bigint (.clamp 3)) rfl hbuilt rfl nofun
  obtain ⟨hboth, -, hwithout⟩ := hlisted ⟨.clamp 3, rfl⟩
  refine ⟨_, _, rfl, rfl, hboth, fun n => hwithout .min n nofun, fun n => ?_⟩
  exact hadded (.custom "any" fun _ => true) rfl n nofun _ hboth

end Schema

end ValueSchema

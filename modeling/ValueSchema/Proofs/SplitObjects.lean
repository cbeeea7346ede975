import ValueSchema.Proofs.KeyAccounts
import ValueSchema.Proofs.Policies

/-!
# Objects split by keys

A test on keys splits an object and its input in two.  What becomes of a key depends on that key
only, so each key has the fate in its half that it has in the whole (`keyFates_filter`).  The
rest follows: the whole succeeds just when both halves do, its output is the two outputs together,
and its issues are theirs.

Issues are told apart by their places.  Those of a field stand below the object
(`Visit.path_of_mem_issues`), and those about keys at the object itself.
-/

namespace ValueSchema

/-! ## Places of issues -/

theorem Path.under_root (pre : Path) : pre.under .root = pre := by
  rw [under, root, List.append_nil]

theorem Issue.path_under (pre : Path) (i : Issue) : (i.under pre).path = pre.under i.path := by
  cases i
  rw [under_eq]

theorem Issue.path_silenced (i : Issue) : i.silenced.path = i.path := by
  cases i
  rw [silenced_eq]

theorem Outcome.issues_translated (tr : Translation) (o : Outcome) :
    (tr.outcome o).issues = o.issues.map tr.issue := by
  match o with
  | .error _ => rfl
  | .ok (.success _) => rfl
  | .ok (.failure _) => rfl

theorem Outcome.issues_under (pre : Path) (o : Outcome) :
    (o.under pre).issues = o.issues.map (Issue.under pre) := by
  match o with
  | .error _ => rfl
  | .ok (.success _) => rfl
  | .ok (.failure _) => rfl

/-- The issues of a visit are found at its place or below. -/
theorem Visit.path_of_mem_issues {call : Call} {t : Visit} {i : Issue}
    (h : i ∈ (t.outcome call).issues) : ∃ p, i.path = t.path.under p := by
  -- Without messages the visit says the same as one at the root, below its own place.
  let t' : Visit := { t with path := .root }
  have hplace : silencing.outcome (t.outcome call) =
      ((silencing.visit t').outcome call.silenced).under t.path := by
    have hvisit : silencing.visit t = (silencing.visit t').under t.path := by
      show Visit.mk _ _ t.path _ = Visit.mk _ _ (t.path.under .root) _
      rw [Path.under_root]
      rfl
    rw [← Visit.outcome_silenced, ← Visit.outcome_under call.silenced_ignorePaths, hvisit]
  have hmem : i.silenced ∈ (silencing.outcome (t.outcome call)).issues := by
    rw [Outcome.issues_translated]
    exact List.mem_map_of_mem h
  rw [hplace, Outcome.issues_under] at hmem
  obtain ⟨j, -, hj⟩ := List.mem_map.mp hmem
  exact ⟨j.path, by rw [← i.path_silenced, ← hj, Issue.path_under]⟩

/-! ## Entries under some keys -/

namespace Entries

variable {α : Type} (test : String → Bool) (m : Entries α) (key : String)

theorem get?_filter_keys :
    (m.filter fun k _ => test k).get? key = if test key then m.get? key else none := by
  show (m.toList.filter fun e => test e.1).lookup key =
    if test key then m.toList.lookup key else none
  induction m.toList with
  | nil => exact (ite_self _).symm
  | cons e l ih =>
      obtain ⟨k, v⟩ := e
      rw [List.filter_cons]
      by_cases hk : key = k
      · rw [hk] at ih ⊢
        cases ht : test k <;> simp [ih, ht]
      · have hne : (key == k) = false := beq_eq_false_iff_ne.mpr hk
        cases ht : test k <;> simp [List.lookup_cons, hne, ih]

theorem hasKey_filter_keys :
    (m.filter fun k _ => test k).hasKey key = (test key && m.hasKey key) := by
  rw [hasKey, get?_filter_keys]
  cases test key <;> rfl

end Entries

/-! ## Fates of some keys -/

section Fates

variable {arena : Option Arena} {shape : Entries Schema} {unknown : UnknownKeys Schema}
  {input : Entries Value} (test : String → Bool)

/-- The keys of one half have the fates that they have in the whole. -/
theorem keyFates_filter :
    keyFates arena (shape.filter fun k _ => test k) unknown (input.filter fun k _ => test k) =
      (keyFates arena shape unknown input).filter fun e => test e.1 := by
  have hdeclared : declaredFates arena (shape.filter fun k _ => test k)
      (input.filter fun k _ => test k) =
        (declaredFates arena shape input).filter fun e => test e.1 := by
    rw [declaredFates, declaredFates, List.filter_map]
    refine List.map_congr_left fun e he => ?_
    have htest : test e.1 = true := (List.mem_filter.mp he).2
    unfold KeyFate.ofDeclared
    rw [Entries.get?_filter_keys, if_pos htest]
  have hundeclared : undeclaredFates (shape.filter fun k _ => test k) unknown
      (input.filter fun k _ => test k) =
        (undeclaredFates shape unknown input).filter fun e => test e.1 := by
    rw [undeclaredFates, undeclaredFates, List.filter_map]
    refine congrArg (List.map _) ?_
    show (input.toList.filter fun e => test e.1).filter _ =
      (input.toList.filter fun e => !shape.hasKey e.1).filter fun e => test e.1
    rw [List.filter_filter, List.filter_filter]
    refine List.filter_congr fun e _ => ?_
    rw [Entries.hasKey_filter_keys]
    cases test e.1 <;> simp
  rw [keyFates, keyFates, List.filter_append, hdeclared, hundeclared]

end Fates

/-- A list falls into the items that pass a test and the others. -/
theorem forall_filter_iff {α : Type} {P : α → Prop} {test other : α → Bool} {l : List α}
    (hother : ∀ a, other a = !test a) :
    (∀ a ∈ l, P a) ↔ (∀ a ∈ l.filter test, P a) ∧ ∀ a ∈ l.filter other, P a := by
  refine ⟨fun h => ⟨fun a ha => h a (List.mem_filter.mp ha).1,
    fun a ha => h a (List.mem_filter.mp ha).1⟩, fun ⟨h, h'⟩ a ha => ?_⟩
  cases ht : test a with
  | true => exact h a (List.mem_filter.mpr ⟨ha, ht⟩)
  | false => exact h' a (List.mem_filter.mpr ⟨ha, by rw [hother, ht]; rfl⟩)

theorem filter_append_perm {α : Type} {test other : α → Bool} {l : List α}
    (hother : ∀ a, other a = !test a) : (l.filter test ++ l.filter other).Perm l := by
  rw [funext hother]
  exact List.filter_append_perm test l

/-! ## What follows from the fates -/

section Fates

variable {call : Call} {input : Entries Value} {fates fates' : List (String × KeyFate)}
  {test : String → Bool}

/-- The output of one half has the keys that the output of the whole has there. -/
theorem keyOutput_filter :
    keyOutput call (fates.filter fun e => test e.1) =
      (keyOutput call fates).filter fun k _ => test k := by
  rw [keyOutput, keyOutput, keptKeys, keptKeys, Entries.filter, Entries.mk.injEq,
    List.filterMap_filter, List.filter_filterMap]
  refine List.filterMap_congr fun e _ => ?_
  cases e.2.kept? _ e.1 with
  | none => exact ite_self _
  | some w => rfl

/-- The issues of the fields that are parsed. -/
def fieldFindings (call : Call) (fates : List (String × KeyFate)) : List Issue :=
  (parsedVisits call fates).flatMap fun t => (t.outcome call).issues

theorem fieldFindings_perm (h : fates.Perm fates') :
    (fieldFindings call fates).Perm (fieldFindings call fates') := by
  refine List.Perm.flatMap_right _ ?_
  exact (h.filterMap _).map _

theorem fieldFindings_append :
    fieldFindings call (fates ++ fates') =
      fieldFindings call fates ++ fieldFindings call fates' := by
  rw [fieldFindings, parsedVisits, parsedParts_append, List.map_append, List.flatMap_append]
  rfl

theorem forall_mem_parsedVisits {P : Visit → Prop} :
    (∀ t ∈ parsedVisits call fates, P t) ↔
      ∀ e ∈ fates, ∀ p ∈ e.2.part? e.1, P (p.visit (Schema.hopsOf call) .root) := by
  rw [parsedVisits, List.forall_mem_map, parsedParts, List.forall_mem_filterMap]
  rfl

theorem keysWith_perm (test : KeyFate → Bool) (h : fates.Perm fates') :
    (keysWith test fates).Perm (keysWith test fates') :=
  (h.filter _).map _

end Fates

/-- A key that does not keep an object from succeeding. -/
def KeyFate.Passes (call : Call) (key : String) (fate : KeyFate) : Prop :=
  fate.isMissing = false ∧ fate.isUnrecognized = false ∧
    ∀ p ∈ fate.part? key, (p.visit (Schema.hopsOf call) .root).Succeeds call

/-! ## Issues about keys and issues of fields -/

/-- The keys that a cause lists as missing. -/
def Cause.missing {ι : Type} : Cause ι → List String
  | .missingKeys keys => keys
  | _ => []

/-- The keys that a cause lists as not recognized. -/
def Cause.unrecognized {ι : Type} : Cause ι → List String
  | .unrecognizedKeys keys => keys
  | _ => []

/-- The keys that an issue lists, if it is about the value itself. -/
def Issue.listed (lists : Cause Issue → List String) (i : Issue) : List String :=
  if i.path.isRoot then lists i.cause else []

/-- The keys that the issues about the value itself list. -/
def Validation.listed (lists : Cause Issue → List String) (r : Validation) : List String :=
  r.issues.flatMap (Issue.listed lists)

/-- The issues about parts of the value. -/
def Validation.fieldIssues (r : Validation) : List Issue := r.issues.filter fun i => !i.path.isRoot

/-- Two validations list between them what another one lists, each entry as often. -/
structure Validation.Splits (r a b : Validation) : Prop where
  /-- The issues of fields. -/
  fields : (a.fieldIssues ++ b.fieldIssues).Perm r.fieldIssues
  /-- The missing keys. -/
  missing : (a.listed Cause.missing ++ b.listed Cause.missing).Perm (r.listed Cause.missing)
  /-- The keys that are not recognized. -/
  unrecognized : (a.listed Cause.unrecognized ++ b.listed Cause.unrecognized).Perm
    (r.listed Cause.unrecognized)

section Findings

variable {call : Call} {input : Entries Value} {fates : List (String × KeyFate)}

/-- The issues of fields stand below the object. -/
theorem isRoot_of_mem_fieldFindings {i : Issue} (h : i ∈ fieldFindings call fates) :
    i.path.isRoot = false := by
  obtain ⟨t, ht, hi⟩ := List.mem_flatMap.mp h
  obtain ⟨p, hp, rfl⟩ := List.mem_map.mp ht
  obtain ⟨q, hq⟩ := Visit.path_of_mem_issues hi
  rw [hq]
  rfl

theorem issues_after_success (is : List Issue) (w : Value) :
    (Validation.after is (.success w)).issues = is := by
  cases is <;> rfl

theorem fieldIssues_findings (w : Value) :
    (Validation.after (keyFindings call input fates) (.success w)).fieldIssues =
      fieldFindings call fates := by
  rw [Validation.fieldIssues, issues_after_success]
  have hkeys : ((fateCauses fates).map fun c => call.issue c .root none (.object input)).filter
      (fun i => !i.path.isRoot) = [] := by
    refine List.filter_eq_nil_iff.mpr (List.forall_mem_map.mpr fun c _ => ?_)
    exact Bool.false_ne_true
  have hfields : (fieldFindings call fates).filter (fun i => !i.path.isRoot) =
      fieldFindings call fates :=
    List.filter_eq_self.mpr fun i hi => by rw [isRoot_of_mem_fieldFindings hi]; rfl
  rw [keyFindings, List.filter_append, hkeys, List.nil_append]
  exact hfields

theorem listed_findings (lists : Cause Issue → List String) (w : Value) :
    (Validation.after (keyFindings call input fates) (.success w)).listed lists =
      (fateCauses fates).flatMap lists := by
  rw [Validation.listed, issues_after_success]
  have hfields : (fieldFindings call fates).flatMap (Issue.listed lists) = [] :=
    List.flatMap_eq_nil_iff.mpr fun i hi => by
      rw [Issue.listed, isRoot_of_mem_fieldFindings hi]
      rfl
  rw [keyFindings, List.flatMap_append, List.flatMap_map]
  exact (congrArg _ hfields).trans (List.append_nil _)

theorem flatMap_missing_fateCauses :
    (fateCauses fates).flatMap Cause.missing = keysWith KeyFate.isMissing fates := by
  rw [fateCauses]
  cases keysWith KeyFate.isMissing fates with
  | nil => cases keysWith KeyFate.isUnrecognized fates <;> rfl
  | cons => cases keysWith KeyFate.isUnrecognized fates <;> exact List.append_nil _

theorem flatMap_unrecognized_fateCauses :
    (fateCauses fates).flatMap Cause.unrecognized = keysWith KeyFate.isUnrecognized fates := by
  rw [fateCauses]
  cases keysWith KeyFate.isMissing fates with
  | nil => cases keysWith KeyFate.isUnrecognized fates <;> first | rfl | exact List.append_nil _
  | cons => cases keysWith KeyFate.isUnrecognized fates <;> first | rfl | exact List.append_nil _

theorem keysWith_eq_nil_iff {test : KeyFate → Bool} :
    keysWith test fates = [] ↔ ∀ e ∈ fates, test e.2 = false := by
  rw [keysWith, List.map_eq_nil_iff, List.filter_eq_nil_iff]
  exact forall₂_congr fun e _ => by rw [Bool.not_eq_true]

/-- An object raises nothing itself when no key is missing and none is not recognized. -/
theorem fateCauses_eq_nil_iff :
    fateCauses fates = [] ↔
      ∀ e ∈ fates, e.2.isMissing = false ∧ e.2.isUnrecognized = false := by
  have hnil : fateCauses fates = [] ↔
      keysWith KeyFate.isMissing fates = [] ∧ keysWith KeyFate.isUnrecognized fates = [] := by
    rw [fateCauses]
    cases keysWith KeyFate.isMissing fates <;>
      cases keysWith KeyFate.isUnrecognized fates <;> simp
  rw [hnil, keysWith_eq_nil_iff, keysWith_eq_nil_iff]
  exact forall₂_and.symm

end Findings

/-! ## One object -/

/-- Parts that do not stop early are no misuse when none of them is. -/
theorem Plan.exists_parts_false_eq_ok {mode : Mode} {visit : Visit → Outcome} {ts : List Visit}
    (own : List Issue) (build : List Value → Validation) (h : ∀ t ∈ ts, ∃ o, visit t = .ok o) :
    ∃ r, (Plan.parts own false ts build).outcome mode visit = .ok r := by
  rw [outcome, Outcome.gather_raised fun _ => rfl, Outcome.gather_false_of_ok h]
  exact ⟨_, rfl⟩

namespace Schema

variable {node : Schema} {call : Call} {shape : Entries Schema} {unknown : UnknownKeys Schema}
  {input : Entries Value} {r : Validation} {w : Value}

/-- An object without checks succeeds when no key stands against it. -/
theorem object_success_fates (hk : node.kind = .object shape unknown)
    (hchecks : node.checks.entries = []) (hshape : shape.keys.Nodup) (hinput : input.keys.Nodup) :
    let fates := keyFates call.options.arena shape unknown input
    (node.rootVisit call (.object input)).outcome call = .ok (.success w) ↔
      (∀ e ∈ fates, e.2.Passes call e.1) ∧ .object (keyOutput call fates) = w := by
  intro fates
  have hparts : objectParts call.options.arena shape unknown input = parsedParts fates :=
    (parsedParts_keyFates ..).symm
  have hpasses : (∀ e ∈ fates, e.2.Passes call e.1) ↔
      fateCauses fates = [] ∧ ∀ p ∈ parsedParts fates,
        (p.visit (hopsOf call) .root).Succeeds call := by
    rw [fateCauses_eq_nil_iff, parsedParts, List.forall_mem_filterMap]
    refine ⟨fun h => ⟨fun e he => ⟨(h e he).1, (h e he).2.1⟩, fun e he => (h e he).2.2⟩, ?_⟩
    rintro ⟨hkeys, hvisits⟩ e he
    exact ⟨(hkeys e he).1, (hkeys e he).2, hvisits e he⟩
  rw [rootVisit, object_success_iff hk hchecks, ← fateCauses_keyFates,
    objectOutput_keyFates hshape hinput, hpasses, hparts, and_assoc]
  rfl

/-- An object without checks that collects all issues is no misuse when none of its keys is. -/
theorem object_ok_iff (hk : node.kind = .object shape unknown)
    (hchecks : node.checks.entries = []) (hstops : node.stops call = false)
    (hshape : shape.keys.Nodup) (hinput : input.keys.Nodup) :
    let fates := keyFates call.options.arena shape unknown input
    (node.rootVisit call (.object input)).outcome call = .ok r ↔
      (∀ t ∈ parsedVisits call fates, ∃ o, t.outcome call = .ok o) ∧
        r = .after (keyFindings call input fates) (.success (.object (keyOutput call fates))) := by
  intro fates
  have houtcome : (node.rootVisit call (.object input)).outcome call =
      (Plan.parts ((fateCauses fates).map fun c => call.issue c .root none (.object input)) false
        (parsedVisits call fates) fun ws => .success (.object
          (objectOutput call.options.arena shape unknown input ws))).outcome call.mode
            (Visit.outcome call) := by
    rw [Visit.outcome_eq, Visit.plan]
    show (node.plan call .root (.object input) (hopsOf call)).outcome call.mode _ = _
    rw [plan_keyFates hk hstops]
    simp only [finished_of_nil hchecks]
    rfl
  have hresult {r : Validation} (h : (node.rootVisit call (.object input)).outcome call = .ok r) :
      (∀ t ∈ parsedVisits call fates, ∃ o, t.outcome call = .ok o) ∧
        r = .after (keyFindings call input fates) (.success (.object (keyOutput call fates))) := by
    obtain ⟨hok, hr⟩ := Plan.parts_false_eq_ok (houtcome ▸ h)
    rw [objectOutput_visits call unknown hshape hinput] at hr
    exact ⟨hok, hr⟩
  refine ⟨hresult, fun ⟨hok, hr⟩ => ?_⟩
  obtain ⟨o, ho⟩ := Plan.exists_parts_false_eq_ok _ _ hok
  rw [hr, ← (hresult (houtcome.trans ho)).2]
  exact houtcome.trans ho

/-! ## Two halves -/

/-- An object with those keys that pass a test. -/
def onKeys (s : Schema) (test : String → Bool) (n : Nat) : Schema :=
  ((s.deriveObject fun shape unknown => (shape.filter fun k _ => test k, unknown)).run n).1

theorem onKeys_eq {s : Schema} (hk : s.kind = .object shape unknown) (test : String → Bool)
    (n : Nat) :
    s.onKeys test n =
      { s with kind := .object (shape.filter fun k _ => test k) unknown, id := n } := by
  rw [onKeys, deriveObject, hk]
  rfl

theorem kind_onKeys {s : Schema} (hk : s.kind = .object shape unknown) (test : String → Bool)
    (n : Nat) : (s.onKeys test n).kind = .object (shape.filter fun k _ => test k) unknown := by
  rw [onKeys_eq hk]

theorem checks_onKeys {s : Schema} (hk : s.kind = .object shape unknown) (test : String → Bool)
    (n : Nat) : (s.onKeys test n).checks = s.checks := by
  rw [onKeys_eq hk]

theorem stops_onKeys {s : Schema} (hk : s.kind = .object shape unknown) (test : String → Bool)
    (n : Nat) : (s.onKeys test n).stops call = s.stops call := by
  rw [onKeys_eq hk]
  rfl

theorem nodup_filter_keys {α : Type} {m : Entries α} (h : m.keys.Nodup) (test : String → Bool) :
    (m.filter fun k _ => test k).keys.Nodup :=
  h.sublist (List.filter_sublist.map Prod.fst)

section Halves

variable {s : Schema} (hk : s.kind = .object shape unknown) (hchecks : s.checks.entries = [])
  (hshape : shape.keys.Nodup) (hinput : input.keys.Nodup) (test : String → Bool) (n : Nat)

include hk hchecks hshape hinput

/-- Half of an object succeeds on half of an input when no key in that half stands against it. -/
theorem onKeys_success_iff :
    let fates := (keyFates call.options.arena shape unknown input).filter fun e => test e.1
    ((s.onKeys test n).rootVisit call (.object (input.filter fun k _ => test k))).outcome call =
        .ok (.success w) ↔
      (∀ e ∈ fates, e.2.Passes call e.1) ∧ .object (keyOutput call fates) = w := by
  intro fates
  have hnone : (s.onKeys test n).checks.entries = [] := by rwa [checks_onKeys hk]
  refine (object_success_fates (kind_onKeys hk test n) hnone (nodup_filter_keys hshape test)
    (nodup_filter_keys hinput test)).trans ?_
  rw [keyFates_filter]

/-- Half of an object that collects all issues lists what its keys amount to. -/
theorem onKeys_ok_iff (hstops : s.stops call = false) :
    let fates := (keyFates call.options.arena shape unknown input).filter fun e => test e.1
    let half : Entries Value := input.filter fun k _ => test k
    ((s.onKeys test n).rootVisit call (.object half)).outcome call = .ok r ↔
      (∀ t ∈ parsedVisits call fates, ∃ o, t.outcome call = .ok o) ∧
        r = .after (keyFindings call half fates) (.success (.object (keyOutput call fates))) := by
  intro fates half
  have hnone : (s.onKeys test n).checks.entries = [] := by rwa [checks_onKeys hk]
  have hcollects : (s.onKeys test n).stops call = false := by rwa [stops_onKeys hk]
  refine (object_ok_iff (kind_onKeys hk test n) hnone hcollects (nodup_filter_keys hshape test)
    (nodup_filter_keys hinput test)).trans ?_
  rw [keyFates_filter]

/-- The halves of an object that succeeds have the halves of its output. -/
theorem output_halves {w : Value}
    (hw : (s.rootVisit call (.object input)).outcome call = .ok (.success w)) :
    ∃ m : Entries Value, w = .object m ∧
      ((s.onKeys test n).rootVisit call
          (.object (input.filter fun k _ => test k))).outcome call =
        .ok (.success (.object (m.filter fun k _ => test k))) := by
  obtain ⟨hpasses, rfl⟩ := (object_success_fates hk hchecks hshape hinput).mp hw
  refine ⟨_, rfl, (onKeys_success_iff hk hchecks hshape hinput test n).mpr ⟨fun e he => ?_, ?_⟩⟩
  · exact hpasses e (List.mem_filter.mp he).1
  · rw [keyOutput_filter]

variable {other : String → Bool} (hother : ∀ k, other k = !test k) (n' : Nat)

include hother

/-- The whole succeeds just when both halves do. -/
theorem succeeds_iff_halves :
    (s.rootVisit call (.object input)).Succeeds call ↔
      ((s.onKeys test n).rootVisit call (.object (input.filter fun k _ => test k))).Succeeds call ∧
      ((s.onKeys other n').rootVisit call
        (.object (input.filter fun k _ => other k))).Succeeds call := by
  have hwhole : (s.rootVisit call (.object input)).Succeeds call ↔
      ∀ e ∈ keyFates call.options.arena shape unknown input, e.2.Passes call e.1 := by
    unfold Visit.Succeeds
    simp only [object_success_fates hk hchecks hshape hinput, exists_and_left, exists_eq', and_true]
  have hhalf (test : String → Bool) (n : Nat) :
      ((s.onKeys test n).rootVisit call
          (.object (input.filter fun k _ => test k))).Succeeds call ↔
        ∀ e ∈ (keyFates call.options.arena shape unknown input).filter fun e => test e.1,
          e.2.Passes call e.1 := by
    unfold Visit.Succeeds
    simp only [onKeys_success_iff hk hchecks hshape hinput, exists_and_left, exists_eq', and_true]
  rw [hwhole, hhalf, hhalf]
  exact forall_filter_iff fun e => hother e.1

/-- The issues of both halves are the issues of the whole. -/
theorem issues_halves (hstops : s.stops call = false) {a b : Validation}
    (hr : (s.rootVisit call (.object input)).outcome call = .ok r)
    (ha : ((s.onKeys test n).rootVisit call
      (.object (input.filter fun k _ => test k))).outcome call = .ok a)
    (hb : ((s.onKeys other n').rootVisit call
      (.object (input.filter fun k _ => other k))).outcome call = .ok b) :
    r.Splits a b := by
  obtain ⟨-, rfl⟩ := (object_ok_iff hk hchecks hstops hshape hinput).mp hr
  obtain ⟨-, rfl⟩ := (onKeys_ok_iff hk hchecks hshape hinput test n hstops).mp ha
  obtain ⟨-, rfl⟩ := (onKeys_ok_iff hk hchecks hshape hinput other n' hstops).mp hb
  have hperm := filter_append_perm (l := keyFates call.options.arena shape unknown input)
    fun e => hother e.1
  constructor
  · rw [fieldIssues_findings, fieldIssues_findings, fieldIssues_findings, ← fieldFindings_append]
    exact fieldFindings_perm hperm
  · simp only [listed_findings, flatMap_missing_fateCauses, ← keysWith_append]
    exact keysWith_perm _ hperm
  · simp only [listed_findings, flatMap_unrecognized_fateCauses, ← keysWith_append]
    exact keysWith_perm _ hperm

/-- Both halves are used rightly just when the whole is. -/
theorem ok_iff_halves (hstops : s.stops call = false) :
    (∃ r, (s.rootVisit call (.object input)).outcome call = .ok r) ↔
      (∃ a, ((s.onKeys test n).rootVisit call
        (.object (input.filter fun k _ => test k))).outcome call = .ok a) ∧
      ∃ b, ((s.onKeys other n').rootVisit call
        (.object (input.filter fun k _ => other k))).outcome call = .ok b := by
  simp only [object_ok_iff hk hchecks hstops hshape hinput,
    onKeys_ok_iff hk hchecks hshape hinput _ _ hstops, exists_and_left, exists_eq, and_true,
    forall_mem_parsedVisits]
  exact forall_filter_iff fun e => hother e.1

end Halves

/-- To pick some keys of an object without checks and to leave them out splits the object in two,
whatever keys are named.

* The object accepts an input just when one half accepts the named keys of it and the other half
  the others, and its output is their outputs together.
* A call that collects all issues is no misuse just when both halves are none, and lists what they
  list between them: issues of fields, missing keys and keys that are not recognized. -/
theorem pick_and_omit_split (s : Schema) (shape : Entries Schema) (unknown : UnknownKeys Schema)
    (hs : s.WellBuilt) (hk : s.kind = .object shape unknown) (hchecks : s.checks.entries = [])
    (names : List String) (input : Entries Value) (hinput : input.keys.Nodup) (n n' : Nat)
    (mode : Mode) (options : Options) (hwhole : options.Truthful s mode (.object input))
    (hpicked : options.Truthful ((s.apply (.pick names)).run n).1 mode
      (.object (input.filter fun k _ => k ∈ names)))
    (hrest : options.Truthful ((s.apply (.omit names)).run n').1 mode
      (.object (input.filter fun k _ => k ∉ names))) :
    let whole := (s.safeParse mode options (.object input)).result
    let picked := (((s.apply (.pick names)).run n).1.safeParse mode options
      (.object (input.filter fun k _ => k ∈ names))).result
    let rest := (((s.apply (.omit names)).run n').1.safeParse mode options
      (.object (input.filter fun k _ => k ∉ names))).result
    ((∃ w, whole = .ok (.success w)) ↔
      (∃ a, picked = .ok (.success a)) ∧ ∃ b, rest = .ok (.success b)) ∧
    (∀ w, whole = .ok (.success w) → ∃ m a b : Entries Value, w = .object m ∧
      picked = .ok (.success (.object a)) ∧ rest = .ok (.success (.object b)) ∧
        a = m.filter (fun k _ => k ∈ names) ∧ b = m.filter (fun k _ => k ∉ names) ∧
          (a.toList ++ b.toList).Perm m.toList) ∧
    (s.stops ⟨options, mode⟩ = false →
      ((∃ r, whole = .ok r) ↔ (∃ a, picked = .ok a) ∧ ∃ b, rest = .ok b) ∧
      ∀ r a b, whole = .ok r → picked = .ok a → rest = .ok b → r.Splits a b) := by
  intro whole picked rest
  have hshape := hs.distinct shape unknown hk
  have hother : ∀ k, decide (k ∉ names) = !decide (k ∈ names) := fun k => decide_not
  have hwhole' : whole = (s.rootVisit ⟨options, mode⟩ (.object input)).outcome ⟨options, mode⟩ :=
    safeParse_of_truthful hwhole
  have hpicked' : picked = ((s.onKeys (fun k => k ∈ names) n).rootVisit ⟨options, mode⟩
      (.object (input.filter fun k _ => k ∈ names))).outcome ⟨options, mode⟩ :=
    safeParse_of_truthful hpicked
  have hrest' : rest = ((s.onKeys (fun k => k ∉ names) n').rootVisit ⟨options, mode⟩
      (.object (input.filter fun k _ => k ∉ names))).outcome ⟨options, mode⟩ :=
    safeParse_of_truthful hrest
  rw [hwhole', hpicked', hrest']
  refine ⟨succeeds_iff_halves hk hchecks hshape hinput _ n hother n', fun w hw => ?_,
    fun hstops => ⟨ok_iff_halves hk hchecks hshape hinput _ n hother n' hstops,
      fun r a b hr ha hb => issues_halves hk hchecks hshape hinput _ n hother n' hstops hr ha hb⟩⟩
  obtain ⟨m, rfl, ha⟩ := output_halves hk hchecks hshape hinput (fun k => k ∈ names) n hw
  obtain ⟨_, he, hb⟩ := output_halves hk hchecks hshape hinput (fun k => k ∉ names) n' hw
  cases he
  exact ⟨m, _, _, rfl, ha, hb, rfl, rfl, filter_append_perm fun e => hother e.1⟩

/-- An object with a text and a number. -/
def scoreNode : Schema :=
  ⟨2, .object ⟨[("name", ⟨0, .leaf .string, .empty, {}⟩),
    ("score", ⟨1, .leaf .number, .empty, {}⟩)]⟩ .strict, .empty, {}⟩

/-- A score that is no number, without a name, and a key too many. -/
def scoreInput : Entries Value := ⟨[("rank", .null), ("score", .bool true)]⟩

/-- The name and the rank, and a key that neither the object nor the input has. -/
def scoreNames : List String := ["name", "rank", "place", "name"]

theorem scoreNode_split :
    ∃ r a b, (scoreNode.safeParse .immediate { abortEarly := some false }
        (.object scoreInput)).result = .ok r ∧
      r.listed Cause.missing = ["name"] ∧ r.listed Cause.unrecognized = ["rank"] ∧
      r.fieldIssues.length = 1 ∧
      (((scoreNode.apply (.pick scoreNames)).run 3).1.safeParse .immediate
        { abortEarly := some false } (.record [("rank", .null)])).result = .ok a ∧
      (((scoreNode.apply (.omit scoreNames)).run 4).1.safeParse .immediate
        { abortEarly := some false } (.record [("score", .bool true)])).result = .ok b ∧
      r.Splits a b := by
  have hbuilt : scoreNode.WellBuilt := by
    refine ⟨nofun, fun shape unknown hk => ?_⟩
    cases hk
    decide
  obtain ⟨-, -, hcollects⟩ := pick_and_omit_split scoreNode _ _ hbuilt rfl rfl scoreNames scoreInput
    (by decide) 3 4 .immediate { abortEarly := some false } nofun nofun nofun
  exact ⟨_, _, _, rfl, rfl, rfl, rfl, rfl, rfl, (hcollects rfl).2 _ _ _ rfl rfl rfl⟩

end Schema

end ValueSchema

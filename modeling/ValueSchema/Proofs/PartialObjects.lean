import ValueSchema.Proofs.SplitObjects

/-!
# Objects whose keys may be missing

`Edit.partialFields` puts an optional node around each field that is not known to let the missing
value through (`Schema.Lenient`).  After that no key is reported as missing
(`absentKeys_eq_nil`).  A field that was left as it is gets the missing value in the place of its
key, and it may still refuse it: it may have a default that it does not accept, or a rule of
the user's.

`Schema.partial_accepts_iff` says that nothing else stands between an object and the inputs that its
partial form accepts.
-/

namespace ValueSchema

/-- A visit ends with issues. -/
def Visit.Fails (call : Call) (t : Visit) : Prop := ∃ is, t.outcome call = .ok (.failure is)

theorem Visit.Succeeds.not_fails {call : Call} {t : Visit} (h : t.Succeeds call) :
    ¬ t.Fails call := by
  obtain ⟨w, hw⟩ := h
  rintro ⟨is, his⟩
  cases hw.symm.trans his

namespace Schema

/-! ## What is known about missing values -/

/-- What is known without definitions holds in any call. -/
theorem admitsMissing_of_acceptsUndefined {s : Schema} (h : s.acceptsUndefined = true)
    (arena : Option Arena) (joins : Prop) (hops : Nat) : s.AdmitsMissing arena joins hops := by
  have hnone : s.AdmitsMissing arena False 0 := by
    have hby := (acceptsUndefinedBy_iff_admitsMissingBy s).mp h
    simpa [AdmitsMissing] using hby
  exact hnone.mono (Nat.zero_le hops) fun _ _ _ _ => False.elim

theorem acceptsUndefinedIn_of_acceptsUndefined {s : Schema} (h : s.acceptsUndefined = true)
    (call : Call) : s.acceptsUndefinedIn call.options.arena = true :=
  (acceptsUndefinedIn_iff_admitsMissing call).mpr
    (admitsMissing_of_acceptsUndefined h _ False _)

/-! ## Lenient forms -/

/-- The form of a schema that lets the missing value through: the schema itself if it is known to
do so, or else an optional node around it. -/
inductive Lenient (s : Schema) : Schema → Prop where
  | same : s.acceptsUndefined = true → Lenient s s
  | around {t : Schema} : s.acceptsUndefined = false → t.kind = .optional s → Lenient s t

theorem orOptional_lenient (s : Schema) : s.orOptional.Makes (Lenient s) := by
  unfold orOptional
  cases h : s.acceptsUndefined with
  | true => exact Build.makes_pure (.same h)
  | false => exact fun _ => .around h rfl

section Lenient

variable {s t : Schema} {call : Call} {hops : Nat} {path : Path} {v : Value}

theorem Lenient.acceptsUndefinedIn (h : Lenient s t) (call : Call) :
    t.acceptsUndefinedIn call.options.arena = true := by
  cases h with
  | same h => exact acceptsUndefinedIn_of_acceptsUndefined h call
  | around _ hk =>
      rw [acceptsUndefinedIn_iff_admitsMissing, admitsMissing_iff, hk]
      trivial

/-- An optional node lets the missing value through, and anything else to the node inside. -/
theorem outcome_optional (hk : t.kind = .optional s) :
    Visit.outcome call ⟨hops, t, path, v⟩ =
      if v.isUndefined then .ok (.success v) else Visit.outcome call ⟨hops, s, path, v⟩ := by
  rw [Visit.outcome_eq]
  show (t.plan call path v hops).outcome call.mode _ = _
  rw [plan, hk]
  dsimp only
  split
  · rfl
  · exact Plan.outcome_pass ..

/-- The lenient form accepts what the schema accepts, and the missing value if it is not known what
the schema does with that. -/
theorem Lenient.succeeds_iff (h : Lenient s t) :
    Visit.Succeeds call ⟨hops, t, path, v⟩ ↔
      (s.acceptsUndefined = false ∧ v = .undefined) ∨ Visit.Succeeds call ⟨hops, s, path, v⟩ := by
  cases h with
  | same hs => simp [hs]
  | around hs hk =>
      unfold Visit.Succeeds
      rw [outcome_optional hk]
      cases v with
      | undefined => simp [hs, Value.isUndefined]
      | _ => simp [Value.isUndefined]

/-- The lenient form refuses what the schema refuses, and the missing value only if it is known to
let that through. -/
theorem Lenient.fails_iff (h : Lenient s t) :
    Visit.Fails call ⟨hops, t, path, v⟩ ↔
      (s.acceptsUndefined = true ∨ v ≠ .undefined) ∧ Visit.Fails call ⟨hops, s, path, v⟩ := by
  cases h with
  | same hs => simp [hs]
  | around hs hk =>
      unfold Visit.Fails
      rw [outcome_optional hk]
      cases v with
      | undefined => simp [hs, Value.isUndefined]
      | _ => simp [Value.isUndefined]

end Lenient

/-! ## The partial form -/

/-- The keys of an object with the lenient forms of their schemas. -/
def LenientFields (fields fields' : List (String × Schema)) : Prop :=
  List.Forall₂ (fun e d => d.1 = e.1 ∧ Lenient e.2 d.2) fields fields'

theorem apply_partialFields {s : Schema} {shape : Entries Schema} {unknown : UnknownKeys Schema}
    (hk : s.kind = .object shape unknown) :
    (s.apply .partialFields).Makes fun t =>
      (∃ fields, t.kind = .object ⟨fields⟩ unknown ∧ LenientFields shape.toList fields) ∧
        t.checks = s.checks := by
  dsimp only [apply]
  rw [hk]
  have hfields : Build.Makes
      (shape.toList.mapM fun e => do return (e.1, ← e.2.orOptional) :
        Build (List (String × Schema)))
      (LenientFields shape.toList) :=
    Build.makes_mapM fun e _ => Build.makes_bind (orOptional_lenient e.2) fun t ht =>
      Build.makes_pure ⟨rfl, ht⟩
  exact Build.makes_bind hfields fun fields h => fun _ => ⟨⟨fields, rfl, h⟩, rfl⟩

section Fields

variable {call : Call} {shape : Entries Schema} {fields : List (String × Schema)}
  (h : LenientFields shape.toList fields) {unknown : UnknownKeys Schema} {input : Entries Value}

include h

/-- What holds of the fields of a partial form, in terms of the fields. -/
theorem LenientFields.forall_iff {P Q : String × Schema → Prop}
    (hPQ : ∀ k s t, Lenient s t → (Q (k, t) ↔ P (k, s))) :
    (∀ d ∈ fields, Q d) ↔ ∀ e ∈ shape.toList, P e := by
  generalize shape.toList = l at h
  induction h with
  | nil => exact ⟨fun _ => nofun, fun _ => nofun⟩
  | @cons e d _ _ hd _ ih =>
      obtain ⟨k, s⟩ := e
      obtain ⟨k', t⟩ := d
      obtain ⟨rfl, ht⟩ := hd
      rw [List.forall_mem_cons, List.forall_mem_cons, hPQ _ _ _ ht, ih]

/-- No key of a partial form is reported as missing. -/
theorem LenientFields.absentKeys_eq_nil :
    absentKeys call.options.arena ⟨fields⟩ input = [] := by
  have haccepts : ∀ d ∈ fields, d.2.acceptsUndefinedIn call.options.arena = true :=
    (h.forall_iff (P := fun _ => True) fun _ _ _ ht =>
      iff_true_intro (ht.acceptsUndefinedIn call)).mpr fun _ _ => trivial
  rw [absentKeys, List.map_eq_nil_iff, List.filter_eq_nil_iff]
  intro d hd
  simp [haccepts d hd]

/-- A partial form declares the same keys. -/
theorem LenientFields.hasKey_eq (k : String) : Entries.hasKey ⟨fields⟩ k = shape.hasKey k := by
  have hkeys : Entries.keys ⟨fields⟩ = shape.keys := keys_eq_of_forall₂ h
  rw [Bool.eq_iff_iff, Entries.hasKey_iff, Entries.hasKey_iff, hkeys]

theorem LenientFields.undeclaredEntries_eq :
    undeclaredEntries ⟨fields⟩ input = undeclaredEntries shape input := by
  refine List.filter_congr fun e _ => ?_
  rw [h.hasKey_eq]

theorem LenientFields.catchallParts_eq :
    catchallParts ⟨fields⟩ unknown input = catchallParts shape unknown input := by
  unfold catchallParts
  rw [h.undeclaredEntries_eq]

end Fields

/-! ## What the partial form accepts -/

/-- The visit of an object to one of its fields, where an absent key stands for the missing
value. -/
def fieldVisit (call : Call) (input : Entries Value) (e : String × Schema) : Visit :=
  Part.visit (hopsOf call) .root ⟨.field e.1, e.2, (input.get? e.1).getD .undefined⟩

variable {call : Call} {s t : Schema} {shape : Entries Schema} {unknown : UnknownKeys Schema}
  {input : Entries Value}

/-- Fields succeed alone just when they do in their objects. -/
theorem fieldVisit_succeeds_iff {e : String × Schema} {v : Value}
    (hv : (input.get? e.1).getD .undefined = v) :
    (fieldVisit call input e).Succeeds call ↔ (e.2.rootVisit call v).Succeeds call := by
  rw [fieldVisit, hv]
  exact exists_congr fun w => Visit.success_under ⟨[.field e.1]⟩ ⟨hopsOf call, e.2, .root, v⟩

/-- An object without checks succeeds when no key is missing, none is refused and all fields
succeed. -/
theorem object_succeeds_fields (hk : s.kind = .object shape unknown)
    (hchecks : s.checks.entries = []) :
    (s.rootVisit call (.object input)).Succeeds call ↔
      absentKeys call.options.arena shape input = [] ∧
        (unknown = .strict → undeclaredEntries shape input = []) ∧
        (∀ e ∈ shape.toList, (fieldVisit call input e).Succeeds call) ∧
        ∀ p ∈ catchallParts shape unknown input,
          (p.visit (hopsOf call) .root).Succeeds call := by
  rw [rootVisit, object_succeeds_iff hk hchecks, keyCauses_eq_nil_iff, objectParts,
    List.forall_mem_append, and_assoc, undeclaredEntries_eq_nil_iff]
  refine and_congr_right fun habsent => and_congr_right fun _ => ?_
  rw [fieldParts_eq habsent, List.forall_mem_map]
  rfl

/-- A partial form succeeds when no key is refused and all fields succeed, except for those that
are missing and have become optional. -/
theorem LenientFields.succeeds_iff {fields : List (String × Schema)}
    (h : LenientFields shape.toList fields) (hk : t.kind = .object ⟨fields⟩ unknown)
    (hchecks : t.checks.entries = []) :
    (t.rootVisit call (.object input)).Succeeds call ↔
      (unknown = .strict → undeclaredEntries shape input = []) ∧
        (∀ e ∈ shape.toList,
          (e.2.acceptsUndefined = false ∧ (input.get? e.1).getD .undefined = .undefined) ∨
            (fieldVisit call input e).Succeeds call) ∧
        ∀ p ∈ catchallParts shape unknown input,
          (p.visit (hopsOf call) .root).Succeeds call := by
  rw [object_succeeds_fields hk hchecks, h.absentKeys_eq_nil, h.undeclaredEntries_eq,
    h.catchallParts_eq]
  refine (and_iff_right rfl).trans (and_congr_right fun _ => and_congr_left fun _ => ?_)
  exact h.forall_iff fun k u u' hu => hu.succeeds_iff

/-- No field of a partial form fails when no field does that is there or left as it is. -/
theorem LenientFields.not_fails_iff {fields : List (String × Schema)}
    (h : LenientFields shape.toList fields) :
    (∀ d ∈ fields, ¬ (fieldVisit call input d).Fails call) ↔
      ∀ e ∈ shape.toList,
        ¬ ((e.2.acceptsUndefined = true ∨ (input.get? e.1).getD .undefined ≠ .undefined) ∧
          (fieldVisit call input e).Fails call) :=
  h.forall_iff fun _ _ _ hu => not_congr hu.fails_iff

/-- The partial form accepts the empty object when the schemas that are known to let the missing
value through do so. -/
theorem LenientFields.empty_succeeds_iff {fields : List (String × Schema)}
    (h : LenientFields shape.toList fields) (hk : t.kind = .object ⟨fields⟩ unknown)
    (hchecks : t.checks.entries = []) :
    (t.rootVisit call (.object .empty)).Succeeds call ↔
      ∀ e ∈ shape.toList, e.2.acceptsUndefined = true →
        (e.2.rootVisit call .undefined).Succeeds call := by
  have hundeclared : undeclaredEntries shape .empty = [] := rfl
  have hcatchall : catchallParts shape unknown .empty = [] := by cases unknown <;> rfl
  rw [h.succeeds_iff hk hchecks, hundeclared, hcatchall, and_iff_right fun _ => rfl,
    and_iff_left fun p hp => nomatch hp]
  refine forall₂_congr fun e _ => ?_
  rw [fieldVisit_succeeds_iff (v := .undefined) rfl]
  cases hknown : e.2.acceptsUndefined with
  | true => simp
  | false => exact iff_of_true (.inl ⟨rfl, rfl⟩) fun h => nomatch h

/-- An object without checks that fails has a key that it refuses or a field that fails. -/
theorem exists_fails_of_object (hk : s.kind = .object shape unknown)
    (hchecks : s.checks.entries = []) (hfails : (s.rootVisit call (.object input)).Fails call)
    (hkeys : keyCauses call.options.arena shape unknown input = []) :
    ∃ p ∈ objectParts call.options.arena shape unknown input,
      (p.visit (hopsOf call) .root).Fails call := by
  obtain ⟨is, hfailure⟩ := hfails
  rw [Visit.outcome_eq] at hfailure
  have hfailure : (s.plan call .root (.object input) (hopsOf call)).outcome call.mode
      (Visit.outcome call) = .ok (.failure is) := hfailure
  rw [plan_object hk, (ownIssues_object_iff hk).mpr hkeys] at hfailure
  simp only [finished_of_nil hchecks] at hfailure
  obtain ⟨⟨js, ws⟩, hgather, hafter⟩ := Outcome.map_eq_ok_iff.mp hfailure
  cases js with
  | nil => cases hafter
  | cons j js =>
      obtain ⟨ks, hks⟩ := Outcome.exists_failure_of_gather hgather
      obtain ⟨u, hu, hvisit⟩ := List.mem_map.mp hks
      obtain ⟨p, hp, rfl⟩ := List.mem_map.mp hu
      exact ⟨p, hp, ks, hvisit⟩

/-! ## Without some keys -/

section Deleted

variable {names : List String} (hnames : ∀ k ∈ names, k ∈ shape.keys)

include hnames

/-- To delete declared keys leaves the others as they are. -/
theorem undeclaredEntries_deleted :
    undeclaredEntries shape (input.filter fun k _ => k ∉ names) =
      undeclaredEntries shape input := by
  rw [undeclaredEntries, undeclaredEntries, Entries.filter, List.filter_filter]
  refine List.filter_congr fun e _ => ?_
  cases hkey : shape.hasKey e.1 with
  | true => rfl
  | false =>
      have hdeleted : e.1 ∉ names := fun hm => by
        rw [(shape.hasKey_iff e.1).mpr (hnames e.1 hm)] at hkey
        cases hkey
      simp [hdeleted]

theorem catchallParts_deleted :
    catchallParts shape unknown (input.filter fun k _ => k ∉ names) =
      catchallParts shape unknown input := by
  unfold catchallParts
  rw [undeclaredEntries_deleted hnames]

omit hnames in
theorem getD_deleted (k : String) :
    ((input.filter fun k _ => k ∉ names).get? k).getD .undefined =
      if k ∈ names then .undefined else (input.get? k).getD .undefined := by
  have hget := input.get?_filter_keys (fun k => k ∉ names) k
  rw [hget]
  by_cases hk : k ∈ names <;> simp [hk]

/-- An input that is accepted stays accepted without some keys when the schemas that are known to
let the missing value through do so. -/
theorem LenientFields.deleted_succeeds_iff {fields : List (String × Schema)}
    (h : LenientFields shape.toList fields) (hk : s.kind = .object shape unknown)
    (hchecks : s.checks.entries = []) (hk' : t.kind = .object ⟨fields⟩ unknown)
    (hchecks' : t.checks.entries = [])
    (hs : (s.rootVisit call (.object input)).Succeeds call) :
    (t.rootVisit call (.object (input.filter fun k _ => k ∉ names))).Succeeds call ↔
      ∀ e ∈ shape.toList, e.1 ∈ names → e.2.acceptsUndefined = true →
        (e.2.rootVisit call .undefined).Succeeds call := by
  obtain ⟨-, hstrict, hfields, hcatchall⟩ := (object_succeeds_fields hk hchecks).mp hs
  rw [h.succeeds_iff hk' hchecks', undeclaredEntries_deleted hnames, catchallParts_deleted hnames,
    and_iff_right hstrict, and_iff_left hcatchall]
  refine forall₂_congr fun e he => ?_
  by_cases hm : e.1 ∈ names
  · have hvalue : ((input.filter fun k _ => k ∉ names).get? e.1).getD .undefined = .undefined := by
      rw [getD_deleted, if_pos hm]
    rw [fieldVisit_succeeds_iff hvalue, hvalue]
    cases e.2.acceptsUndefined <;> simp [hm]
  · have hvalue : ((input.filter fun k _ => k ∉ names).get? e.1).getD .undefined =
        (input.get? e.1).getD .undefined := by
      rw [getD_deleted, if_neg hm]
    have hfield := hfields e he
    rw [fieldVisit_succeeds_iff rfl, ← fieldVisit_succeeds_iff hvalue] at hfield
    exact iff_of_true (.inr hfield) fun hm' => absurd hm' hm

omit hnames in
/-- A field that succeeds does not fail without its key, if its schema is known to let the missing
value through and leaves that as it is. -/
theorem deleted_field_not_fails {e : String × Schema}
    (hsucceeds : (fieldVisit call input e).Succeeds call)
    (htransparent : e.1 ∈ names → e.2.acceptsUndefined = true →
      e.2.Everywhere call.options.arena Transparent)
    (hlenient : e.2.acceptsUndefined = true ∨
      ((input.filter fun k _ => k ∉ names).get? e.1).getD .undefined ≠ .undefined) :
    ¬ (fieldVisit call (input.filter fun k _ => k ∉ names) e).Fails call := by
  intro hfails
  by_cases hm : e.1 ∈ names
  · have hvalue : (fieldVisit call (input.filter fun k _ => k ∉ names) e).value = .undefined := by
      show ((input.filter fun k _ => k ∉ names).get? e.1).getD .undefined = .undefined
      rw [getD_deleted, if_pos hm]
    have hknown := hlenient.resolve_right (not_not_intro hvalue)
    obtain ⟨is, his⟩ := hfails
    have hdecides := Visit.outcome_decides call _ hvalue (htransparent hm hknown)
    exact hdecides.of_failure his (admitsMissing_of_acceptsUndefined hknown _ _ _)
  · have hvisit : fieldVisit call (input.filter fun k _ => k ∉ names) e =
        fieldVisit call input e := by
      rw [fieldVisit, fieldVisit, getD_deleted, if_neg hm]
    exact hsucceeds.not_fails (hvisit ▸ hfails)

/-- An input that is accepted is not refused without some keys, if the schemas of these that are
known to let the missing value through leave that as it is. -/
theorem LenientFields.deleted_not_fails {fields : List (String × Schema)}
    (h : LenientFields shape.toList fields) (hk : s.kind = .object shape unknown)
    (hchecks : s.checks.entries = []) (hk' : t.kind = .object ⟨fields⟩ unknown)
    (hchecks' : t.checks.entries = [])
    (hs : (s.rootVisit call (.object input)).Succeeds call)
    (htransparent : ∀ e ∈ shape.toList, e.1 ∈ names → e.2.acceptsUndefined = true →
      e.2.Everywhere call.options.arena Transparent) :
    ¬ (t.rootVisit call (.object (input.filter fun k _ => k ∉ names))).Fails call := by
  obtain ⟨-, hstrict, hfields, hcatchall⟩ := (object_succeeds_fields hk hchecks).mp hs
  have hkeys : keyCauses call.options.arena ⟨fields⟩ unknown
      (input.filter fun k _ => k ∉ names) = [] := by
    rw [keyCauses_eq_nil_iff, ← undeclaredEntries_eq_nil_iff, h.undeclaredEntries_eq,
      undeclaredEntries_deleted hnames]
    exact ⟨h.absentKeys_eq_nil, hstrict⟩
  intro hfails
  obtain ⟨p, hp, hpfails⟩ := exists_fails_of_object hk' hchecks' hfails hkeys
  rcases List.mem_append.mp hp with hp | hp
  · rw [fieldParts_eq h.absentKeys_eq_nil] at hp
    obtain ⟨d, hd, rfl⟩ := List.mem_map.mp hp
    have hfields' : ∀ d ∈ fields,
        ¬ (fieldVisit call (input.filter fun k _ => k ∉ names) d).Fails call := by
      refine h.not_fails_iff.mpr fun e he => ?_
      rintro ⟨hlenient, hfails⟩
      exact deleted_field_not_fails (hfields e he) (htransparent e he) hlenient hfails
    exact hfields' d hd hpfails
  · rw [h.catchallParts_eq, catchallParts_deleted hnames] at hp
    exact (hcatchall p hp).not_fails hpfails

end Deleted

/-- What the partial form of an object without checks accepts.

* It accepts the empty object just when the fields that are known to let the missing value through
  do so.
* It accepts an input that the object accepts, without some of the declared keys, just when the
  fields of those keys do so.
* Without keys whose fields are known to let the missing value through only if they leave it as it
  is, no input that the object accepts is refused. -/
theorem partial_accepts_iff (s : Schema) (shape : Entries Schema) (unknown : UnknownKeys Schema)
    (hk : s.kind = .object shape unknown) (hchecks : s.checks.entries = []) (n : Nat) (mode : Mode)
    (options : Options) (hwhole : ∀ v, options.Truthful s mode v)
    (hparted : ∀ v, options.Truthful ((s.apply .partialFields).run n).1 mode v)
    (hparts : ∀ e ∈ shape.toList, options.Truthful e.2 mode .undefined) :
    let parted := ((s.apply .partialFields).run n).1
    let accepts (t : Schema) (v : Value) : Prop :=
      ∃ w, (t.safeParse mode options v).result = .ok (.success w)
    (accepts parted (.object .empty) ↔
      ∀ e ∈ shape.toList, e.2.acceptsUndefined = true → accepts e.2 .undefined) ∧
    ∀ (input : Entries Value) (names : List String), accepts s (.object input) →
      (∀ k ∈ names, k ∈ shape.keys) →
      (accepts parted (.object (input.filter fun k _ => k ∉ names)) ↔
        ∀ e ∈ shape.toList, e.1 ∈ names → e.2.acceptsUndefined = true → accepts e.2 .undefined) ∧
      ((∀ e ∈ shape.toList, e.1 ∈ names → e.2.acceptsUndefined = true →
          e.2.Everywhere options.arena Transparent) →
        ∀ r, (parted.safeParse mode options
            (.object (input.filter fun k _ => k ∉ names))).result = .ok r →
          ∃ w, r = .success w) := by
  intro parted accepts
  obtain ⟨⟨fields, hk', hfields⟩, hsame⟩ := apply_partialFields hk n
  have hchecks' : parted.checks.entries = [] := by
    rw [← hchecks]
    exact congrArg Checks.entries hsame
  have haccepts {t : Schema} {v : Value} (h : options.Truthful t mode v) :
      accepts t v ↔ (t.rootVisit ⟨options, mode⟩ v).Succeeds ⟨options, mode⟩ :=
    exists_congr fun w => by rw [safeParse_of_truthful h]
  refine ⟨?_, fun input names hs hnames => ⟨?_, fun htransparent r hr => ?_⟩⟩
  · refine (haccepts (hparted _)).trans ((hfields.empty_succeeds_iff hk' hchecks').trans ?_)
    exact forall₂_congr fun e he => imp_congr_right fun _ => (haccepts (hparts e he)).symm
  · rw [haccepts (hwhole _)] at hs
    refine (haccepts (hparted _)).trans
      ((hfields.deleted_succeeds_iff hnames hk hchecks hk' hchecks' hs).trans ?_)
    exact forall₂_congr fun e he => imp_congr_right fun _ => imp_congr_right fun _ =>
      (haccepts (hparts e he)).symm
  · rw [haccepts (hwhole _)] at hs
    cases r with
    | success w => exact ⟨w, rfl⟩
    | failure is =>
        rw [safeParse_of_truthful (hparted _)] at hr
        exact absurd ⟨is, hr⟩
          (hfields.deleted_not_fails hnames hk hchecks hk' hchecks' hs htransparent)

/-- An object with a text and with a number that has a default. -/
def counterNode (start : Value) : Schema :=
  ⟨3, .object ⟨[("name", ⟨0, .leaf .string, .empty, {}⟩),
    ("count", ⟨2, .default ⟨1, .leaf .number, .empty, {}⟩ start, .empty, {}⟩)]⟩ .strict, .empty, {}⟩

/-- A name and a count. -/
def counterInput : Value := .record [("name", .string "visits"), ("count", .ofNat 7)]

theorem counterNode_partial :
    ∃ w, ((((counterNode (.ofNat 0)).apply .partialFields).run 4).1.safeParse .immediate {}
      (.record [])).result = .ok (.success w) := by
  obtain ⟨-, hdeleted⟩ := partial_accepts_iff (counterNode (.ofNat 0)) _ _ rfl rfl 4 .immediate {}
    (fun _ => nofun) (fun _ => nofun) (fun _ _ => nofun)
  obtain ⟨haccepts, -⟩ := hdeleted ⟨[("name", .string "visits"), ("count", .ofNat 7)]⟩
    ["name", "count"] ⟨counterInput, rfl⟩ (by decide)
  refine haccepts.mpr fun e he _ hknown => ?_
  rcases List.mem_cons.mp he with rfl | he
  · cases hknown
  · obtain rfl := List.mem_singleton.mp he
    exact ⟨.ofNat 0, rfl⟩

/-- A default that its own schema refuses keeps the partial form from accepting that the key is
missing. -/
theorem counterNode_refuses_missing :
    ((counterNode (.string "none")).safeParse .immediate {} counterInput).result =
        .ok (.success counterInput) ∧
      ∀ w, ((((counterNode (.string "none")).apply .partialFields).run 4).1.safeParse .immediate {}
        (.record [("name", .string "visits")])).result ≠ .ok (.success w) := by
  refine ⟨rfl, fun w hw => ?_⟩
  cases hw

end Schema

end ValueSchema

import ValueSchema.Proofs.Composition
import ValueSchema.Proofs.Messages
import ValueSchema.Proofs.Objects

/-!
# Policies for undeclared keys

The policy of an object decides what happens with undeclared keys, and nothing else
(`Schema.policies_differ_on_undeclared_keys`).  To drop them or to keep them as they are makes no
difference to what is refused and why.  To refuse them adds one condition on the input, and to
parse them with a schema adds one condition on each undeclared value.

A schema accepts a value at one place just when it does so at any other place
(`Visit.success_under`): messages may be taken from paths, but messages decide nothing.
-/

namespace ValueSchema

/-! ## Success at other places -/

theorem Translation.outcome_eq_success_iff {tr : Translation} {o : Outcome} {w : Value} :
    tr.outcome o = .ok (.success w) ↔ o = .ok (.success w) := by
  match o with
  | .error e => exact ⟨nofun, nofun⟩
  | .ok (.success u) => exact Iff.rfl
  | .ok (.failure is) => exact ⟨nofun, nofun⟩

theorem Call.silenced_ignorePaths (call : Call) :
    call.silenced.options.messages.IgnorePaths := by
  intro m hm _ _
  obtain rfl := List.mem_singleton.mp hm
  rfl

/-- A visit succeeds at a deeper place just when it does so at its own, with one output. -/
theorem Visit.success_under {call : Call} (pre : Path) (t : Visit) {w : Value} :
    (t.under pre).outcome call = .ok (.success w) ↔ t.outcome call = .ok (.success w) := by
  have hunder : silencing.visit (t.under pre) = (silencing.visit t).under pre := rfl
  rw [← silencing.outcome_eq_success_iff, ← Visit.outcome_silenced, hunder,
    Visit.outcome_under call.silenced_ignorePaths, ← (silencing.outcome_eq_success_iff (o := t.outcome call)),
    ← Visit.outcome_silenced]
  match (silencing.visit t).outcome call.silenced with
  | .error e => exact ⟨nofun, nofun⟩
  | .ok (.success u) => exact Iff.rfl
  | .ok (.failure is) => exact ⟨nofun, nofun⟩

/-! ## Agreement -/

/-- Two objects have the same values under the declared keys. -/
def Value.AgreesOn (shape : Entries Schema) (v w : Value) : Prop :=
  ∃ m n, v = .object m ∧ w = .object n ∧ ∀ k, shape.hasKey k = true → m.get? k = n.get? k

/-- The same misuse, the same issues, or outputs in a relation. -/
inductive Outcome.Matches (R : Value → Value → Prop) : Outcome → Outcome → Prop where
  | misuse (e : Misuse) : Matches R (.error e) (.error e)
  | failure (is : Issues) : Matches R (.ok (.failure is)) (.ok (.failure is))
  | success {v w : Value} : R v w → Matches R (.ok (.success v)) (.ok (.success w))

/-- Two ways to put an output together from the same steps. -/
theorem Plan.conclude_matches {R : Value → Value → Prop} {f g : List Value → Value}
    (h : ∀ ws, R (f ws) (g ws)) (r : Except Misuse (List Issue × List Value)) :
    Outcome.Matches R (conclude r fun ws => .success (f ws))
      (conclude r fun ws => .success (g ws)) := by
  match r with
  | .error e => exact .misuse e
  | .ok ([], ws) => exact .success (h ws)
  | .ok (i :: is, ws) => exact .failure ⟨i, is⟩

section Keys

variable {arena : Option Arena} {shape : Entries Schema} {unknown : UnknownKeys Schema}
  {input : Entries Value}

/-- Entries under undeclared keys change nothing under the declared ones. -/
theorem Value.agreesOn_insertAll (m : Entries Value) {l : List (String × Value)}
    (h : ∀ e ∈ l, shape.get? e.1 = none) :
    AgreesOn shape (.object m) (.object (m.insertAll l)) := by
  refine ⟨m, _, rfl, rfl, fun k hk => (Entries.get?_insertAll_of_not_mem ?_ m).symm⟩
  intro hmem
  obtain ⟨e, he, rfl⟩ := List.mem_map.mp hmem
  rw [Entries.hasKey, h e he] at hk
  cases hk

theorem objectOutput_strip (arena : Option Arena) (shape : Entries Schema) (input : Entries Value)
    (ws : List Value) :
    objectOutput arena shape .strip input ws =
      Entries.ofList (keptEntries (fieldParts arena shape input) ws) := by
  have hparts : objectParts arena shape .strip input = fieldParts arena shape input :=
    List.append_nil _
  rw [objectOutput, hparts]
  rfl

theorem objectOutput_passthrough (arena : Option Arena) (shape : Entries Schema)
    (input : Entries Value) (ws : List Value) :
    objectOutput arena shape .passthrough input ws =
      (objectOutput arena shape .strip input ws).insertAll (undeclaredEntries shape input) :=
  rfl

/-- The output of an object that parses undeclared keys extends the one of an object that drops
them. -/
theorem objectOutput_catchall (C : Schema) (f : Part → Value) :
    objectOutput arena shape (.catchall C) input
        ((objectParts arena shape (.catchall C) input).map f) =
      (objectOutput arena shape .strip input
        ((objectParts arena shape .strip input).map f)).insertAll
          (keptEntries (catchallParts shape (.catchall C) input)
            ((catchallParts shape (.catchall C) input).map f)) := by
  have hstrip : objectParts arena shape .strip input = fieldParts arena shape input :=
    List.append_nil _
  rw [objectOutput_strip, hstrip, objectOutput, keptEntries_map, objectParts, List.filterMap_append,
    ← keptEntries_map, ← keptEntries_map]
  exact List.foldl_append

end Keys

/-! ## The policies -/

namespace Schema

variable {call : Call} {path : Path} {hops : Nat} {shape : Entries Schema} {v w : Value}

theorem apply_unknownKeys {s : Schema} {unknown : UnknownKeys Schema}
    (hk : s.kind = .object shape unknown) (policy : UnknownKeys Schema) (n : Nat) :
    ((s.apply (.unknownKeys policy)).run n).1 =
      { s with kind := .object shape policy, id := n } := by
  rw [apply, deriveObject, hk]
  rfl

/-- Whether undeclared keys are dropped or kept makes no difference to what is refused. -/
theorem strip_matches_passthrough {a b : Schema} (ha : a.kind = .object shape .strip)
    (hb : b.kind = .object shape .passthrough) (ha' : a.checks.entries = [])
    (hb' : b.checks.entries = []) (hsettings : a.settings = b.settings) :
    Outcome.Matches (Value.AgreesOn shape) (Visit.outcome call ⟨hops, a, path, v⟩)
      (Visit.outcome call ⟨hops, b, path, v⟩) := by
  have hstops : a.stops call = b.stops call := by rw [stops, stops, hsettings]
  rw [Visit.outcome_eq, Visit.outcome_eq]
  show Outcome.Matches _ ((a.plan call path v hops).outcome call.mode _)
    ((b.plan call path v hops).outcome call.mode _)
  by_cases hv : ∃ input, v = .object input
  · obtain ⟨input, rfl⟩ := hv
    have hown : a.ownIssues call path (.object input) = b.ownIssues call path (.object input) := by
      rw [ownIssues_object ha, ownIssues_object hb, hstops]
      rfl
    rw [plan_object ha, plan_object hb, hown, hstops]
    simp only [finished_of_nil ha', finished_of_nil hb']
    refine Plan.conclude_matches (fun ws => ?_) _
    rw [objectOutput_passthrough]
    exact Value.agreesOn_insertAll _ fun e he => (mem_undeclaredEntries.mp he).2
  · have hne : ∀ input, v ≠ .object input := fun input he => hv ⟨input, he⟩
    rw [plan_object_of_ne ha hne, plan_object_of_ne hb hne, hsettings]
    exact .failure _

/-- To refuse undeclared keys is to drop them and to ask that there are none. -/
theorem strict_success_iff {a b : Schema} (ha : a.kind = .object shape .strip)
    (hb : b.kind = .object shape .strict) (ha' : a.checks.entries = [])
    (hb' : b.checks.entries = []) :
    Visit.outcome call ⟨hops, b, path, v⟩ = .ok (.success w) ↔
      Visit.outcome call ⟨hops, a, path, v⟩ = .ok (.success w) ∧ v.undeclared shape = [] := by
  by_cases hv : ∃ input, v = .object input
  · obtain ⟨input, rfl⟩ := hv
    have hcauses : keyCauses call.options.arena shape .strict input = [] ↔
        keyCauses call.options.arena shape .strip input = [] ∧
          undeclaredEntries shape input = [] := by
      rw [keyCauses_eq_nil_iff, keyCauses_eq_nil_iff, undeclaredEntries_eq_nil_iff]
      simp
    rw [object_success_iff ha ha', object_success_iff hb hb', hcauses]
    exact ⟨fun ⟨⟨h, hu⟩, hrest⟩ => ⟨⟨h, hrest⟩, hu⟩, fun ⟨⟨h, hrest⟩, hu⟩ => ⟨⟨h, hu⟩, hrest⟩⟩
  · have hne : ∀ input, v ≠ .object input := fun input he => hv ⟨input, he⟩
    exact ⟨fun h => absurd h (object_not_success hb hne),
      fun h => absurd h.1 (object_not_success ha hne)⟩

/-- To parse undeclared keys is to drop them and to ask that their values are accepted. -/
theorem catchall_succeeds_iff {a b C : Schema} (ha : a.kind = .object shape .strip)
    (hb : b.kind = .object shape (.catchall C)) (ha' : a.checks.entries = [])
    (hb' : b.checks.entries = []) :
    Visit.Succeeds call ⟨hops, b, .root, v⟩ ↔
      Visit.Succeeds call ⟨hops, a, .root, v⟩ ∧
        ∀ e ∈ v.undeclared shape, Visit.Succeeds call ⟨hops, C, .root, e.2⟩ := by
  by_cases hv : ∃ input, v = .object input
  · obtain ⟨input, rfl⟩ := hv
    have hplace (e : String × Value) :
        (Part.visit hops .root ⟨.field e.1, C, e.2⟩).Succeeds call ↔
          Visit.Succeeds call ⟨hops, C, .root, e.2⟩ :=
      exists_congr fun w => Visit.success_under ⟨[.field e.1]⟩ ⟨hops, C, .root, e.2⟩
    rw [object_succeeds_iff ha ha', object_succeeds_iff hb hb', objectParts, objectParts,
      List.forall_mem_append, List.forall_mem_append, catchallParts, List.forall_mem_map, and_assoc]
    refine and_congr_right fun _ => and_congr ?_ ?_
    · exact (and_iff_left fun p hp => absurd hp List.not_mem_nil).symm
    · exact forall₂_congr fun e _ => hplace e
  · have hne : ∀ input, v ≠ .object input := fun input he => hv ⟨input, he⟩
    constructor
    · rintro ⟨w, h⟩
      exact absurd h (object_not_success hb hne)
    · rintro ⟨⟨w, h⟩, -⟩
      exact absurd h (object_not_success ha hne)

/-- What undeclared keys are parsed to changes nothing under the declared ones. -/
theorem catchall_agreesOn {a b C : Schema} {w' : Value} (ha : a.kind = .object shape .strip)
    (hb : b.kind = .object shape (.catchall C)) (ha' : a.checks.entries = [])
    (hb' : b.checks.entries = [])
    (hw : Visit.outcome call ⟨hops, a, path, v⟩ = .ok (.success w))
    (hw' : Visit.outcome call ⟨hops, b, path, v⟩ = .ok (.success w')) :
    w.AgreesOn shape w' := by
  by_cases hv : ∃ input, v = .object input
  · obtain ⟨input, rfl⟩ := hv
    obtain ⟨-, -, rfl⟩ := (object_success_iff ha ha').mp hw
    obtain ⟨-, -, rfl⟩ := (object_success_iff hb hb').mp hw'
    rw [objectOutput_catchall]
    refine Value.agreesOn_insertAll _ ?_
    rintro ⟨k, x⟩ he
    obtain ⟨p, hp, rfl, -⟩ := mem_keptEntries.mp he
    obtain ⟨e, hundeclared, rfl⟩ := List.mem_map.mp hp
    exact (mem_undeclaredEntries.mp hundeclared).2
  · exact absurd hw (object_not_success ha fun input he => hv ⟨input, he⟩)

/-- The policies of an object without checks differ on undeclared keys only.

* To drop them and to keep them as they are gives the same misuse, the same issues, or outputs
  that agree on the declared keys.
* To refuse them succeeds just when there are none and to drop them succeeds, with its output.
* To parse them with a schema succeeds just when to drop them succeeds and the schema accepts the
  values under all of them, each in a call of its own.  The outputs agree on the declared keys. -/
theorem policies_differ_on_undeclared_keys (s : Schema) (shape : Entries Schema)
    (unknown : UnknownKeys Schema) (hk : s.kind = .object shape unknown)
    (hchecks : s.checks.entries = []) (C : Schema) (id : UnknownKeys Schema → Nat) (mode : Mode)
    (options : Options) (hcache : options.cache = none) (v : Value) :
    let result (policy : UnknownKeys Schema) : Outcome :=
      (((s.apply (.unknownKeys policy)).run (id policy)).1.safeParse mode options v).result
    Outcome.Matches (Value.AgreesOn shape) (result .strip) (result .passthrough) ∧
    (∀ w, result .strict = .ok (.success w) ↔
      result .strip = .ok (.success w) ∧ v.undeclared shape = []) ∧
    ((∃ w, result (.catchall C) = .ok (.success w)) ↔
      (∃ w, result .strip = .ok (.success w)) ∧
        ∀ e ∈ v.undeclared shape, ∃ x, (C.safeParse mode options e.2).result = .ok (.success x)) ∧
    ∀ w w', result .strip = .ok (.success w) → result (.catchall C) = .ok (.success w') →
      w.AgreesOn shape w' := by
  intro result
  let node (policy : UnknownKeys Schema) : Schema :=
    { s with kind := .object shape policy, id := id policy }
  have hnone (policy : UnknownKeys Schema) : (node policy).checks.entries = [] := hchecks
  have hresult (policy : UnknownKeys Schema) : result policy =
      Visit.outcome ⟨options, mode⟩ ⟨hopsOf ⟨options, mode⟩, node policy, .root, v⟩ := by
    show (((s.apply (.unknownKeys policy)).run (id policy)).1.safeParse mode options v).result = _
    rw [apply_unknownKeys hk, safeParse_uncached _ _ _ _ hcache]
    rfl
  have halone (x : Value) : (C.safeParse mode options x).result =
      Visit.outcome ⟨options, mode⟩ ⟨hopsOf ⟨options, mode⟩, C, .root, x⟩ :=
    safeParse_uncached _ _ _ _ hcache
  simp only [hresult, halone]
  exact ⟨strip_matches_passthrough rfl rfl (hnone _) (hnone _) rfl,
    fun w => strict_success_iff rfl rfl (hnone _) (hnone _),
    catchall_succeeds_iff rfl rfl (hnone _) (hnone _),
    fun w w' hw hw' => catchall_agreesOn rfl rfl (hnone _) (hnone _) hw hw'⟩

/-- An object with a name. -/
def labelNode : Schema :=
  ⟨1, .object ⟨[("name", ⟨0, .leaf .string, .empty, {}⟩)]⟩ .strip, .empty, {}⟩

/-- A name and a truth value under a key that is not declared. -/
def labelInput : Value := .record [("done", .bool true), ("name", .string "first")]

theorem labelNode_policies :
    (∀ w, (((labelNode.apply (.unknownKeys .strict)).run 3).1.safeParse .deferred {}
        labelInput).result ≠ .ok (.success w)) ∧
      ∃ w, (((labelNode.apply (.unknownKeys (.catchall ⟨2, .leaf .boolean, .empty, {}⟩))).run
          3).1.safeParse .deferred {} labelInput).result = .ok (.success w) ∧
        (Value.record [("name", .string "first")]).AgreesOn
          ⟨[("name", ⟨0, .leaf .string, .empty, {}⟩)]⟩ w := by
  obtain ⟨-, hstrict, hcatchall, hagree⟩ := policies_differ_on_undeclared_keys labelNode _ _ rfl rfl
    ⟨2, .leaf .boolean, .empty, {}⟩ (fun _ => 3) .deferred {} rfl labelInput
  constructor
  · intro w hw
    exact nomatch ((hstrict w).mp hw).2
  · have haccepts : ∀ e ∈ labelInput.undeclared ⟨[("name", ⟨0, .leaf .string, .empty, {}⟩)]⟩,
        ∃ x, (Schema.safeParse ⟨2, .leaf .boolean, .empty, {}⟩ .deferred {} e.2).result =
          .ok (.success x) := by
      intro e he
      obtain rfl := List.mem_singleton.mp he
      exact ⟨_, rfl⟩
    obtain ⟨w, hw⟩ := hcatchall.mpr ⟨⟨_, rfl⟩, haccepts⟩
    exact ⟨w, hw, hagree _ w rfl hw⟩

end Schema

end ValueSchema

import ValueSchema.Proofs.CallCounts
import ValueSchema.Proofs.Composition
import ValueSchema.Proofs.Objects
import ValueSchema.Proofs.Shape

/-!
# What becomes of the keys of an object

An object and an input have some keys: those that are declared, in the order of the shape, and
then the others, in the order of the input.  `keyFates` says what becomes of each.  It is missing,
parsed with a schema, not recognized, dropped, or copied.

A call that collects all issues does just that (`Schema.object_accounts`).  Missing keys are
listed in one issue and keys that are not recognized in another one.  Each key that is parsed is
parsed once, so its issues are listed once and its calls are counted once.  The output has the
parsed and the copied keys in their order.
-/

namespace ValueSchema

open ValueSchema.Parser

/-! ## Fates -/

/-- What becomes of a key of an object. -/
inductive KeyFate where
  /-- It is declared and absent, and its schema does not accept that. -/
  | missing
  /-- A value is parsed with a schema. -/
  | parsed (schema : Schema) (v : Value)
  /-- It is not declared, and has to be. -/
  | unrecognized
  /-- It is not declared and left out. -/
  | dropped
  /-- It is not declared and keeps its value. -/
  | copied (v : Value)

namespace KeyFate

/-- A declared key is parsed with its value, or with the missing one if its schema accepts
that. -/
def ofDeclared (arena : Option Arena) (input : Entries Value) (key : String) (s : Schema) :
    KeyFate :=
  match input.get? key with
  | some v => .parsed s v
  | none => if s.acceptsUndefinedIn arena then .parsed s .undefined else .missing

/-- The policy decides about any other key. -/
def ofUndeclared (unknown : UnknownKeys Schema) (v : Value) : KeyFate :=
  match unknown with
  | .strict => .unrecognized
  | .strip => .dropped
  | .passthrough => .copied v
  | .catchall s => .parsed s v

/-- Whether a key is missing. -/
def isMissing : KeyFate → Bool
  | .missing => true
  | _ => false

/-- Whether a key is not recognized. -/
def isUnrecognized : KeyFate → Bool
  | .unrecognized => true
  | _ => false

/-- The part of the object that a key is parsed as. -/
def part? (key : String) : KeyFate → Option Part
  | .parsed s v => some ⟨.field key, s, v⟩
  | _ => none

/-- What the output has under a key, given the outputs of parts. -/
def kept? (f : Part → Value) (key : String) : KeyFate → Option Value
  | .parsed s v => if (f ⟨.field key, s, v⟩).isUndefined then none else some (f ⟨.field key, s, v⟩)
  | .copied v => some v
  | _ => none

end KeyFate

/-- What becomes of the keys that an object declares. -/
def declaredFates (arena : Option Arena) (shape : Entries Schema) (input : Entries Value) :
    List (String × KeyFate) :=
  shape.toList.map fun e => (e.1, .ofDeclared arena input e.1 e.2)

/-- What becomes of the other keys of an input. -/
def undeclaredFates (shape : Entries Schema) (unknown : UnknownKeys Schema)
    (input : Entries Value) : List (String × KeyFate) :=
  (undeclaredEntries shape input).map fun e => (e.1, .ofUndeclared unknown e.2)

/-- What becomes of all keys of an object and an input. -/
def keyFates (arena : Option Arena) (shape : Entries Schema) (unknown : UnknownKeys Schema)
    (input : Entries Value) : List (String × KeyFate) :=
  declaredFates arena shape input ++ undeclaredFates shape unknown input

/-- The keys whose fate passes a test. -/
def keysWith (test : KeyFate → Bool) (fates : List (String × KeyFate)) : List String :=
  (fates.filter fun e => test e.2).map Prod.fst

/-- The parts of an object, from the fates of its keys. -/
def parsedParts (fates : List (String × KeyFate)) : List Part :=
  fates.filterMap fun e => e.2.part? e.1

/-- The entries of the output, from the fates of the keys. -/
def keptKeys (f : Part → Value) (fates : List (String × KeyFate)) : List (String × Value) :=
  fates.filterMap fun e => (e.2.kept? f e.1).map fun w => (e.1, w)

/-- What is raised about keys: one issue for all that are missing, and one for all that are not
recognized. -/
def fateCauses (fates : List (String × KeyFate)) : List (Cause Issue) :=
  let missing := keysWith KeyFate.isMissing fates
  let unrecognized := keysWith KeyFate.isUnrecognized fates
  (if missing.isEmpty then [] else [.missingKeys missing]) ++
    if unrecognized.isEmpty then [] else [.unrecognizedKeys unrecognized]

section Fates

variable {arena : Option Arena} {shape : Entries Schema} {unknown : UnknownKeys Schema}
  {input : Entries Value}

/-! ## The keys with a fate -/

theorem keys_keyFates :
    (keyFates arena shape unknown input).map Prod.fst =
      shape.keys ++ input.keys.filter fun k => !shape.hasKey k := by
  rw [keyFates, List.map_append, declaredFates, undeclaredFates, List.map_map, List.map_map,
    undeclaredEntries, Entries.keys, Entries.keys, List.filter_map]
  rfl

variable (arena unknown) in
/-- No key has two fates. -/
theorem nodup_keyFates (hshape : shape.keys.Nodup) (hinput : input.keys.Nodup) :
    ((keyFates arena shape unknown input).map Prod.fst).Nodup := by
  rw [keys_keyFates]
  refine List.nodup_append.mpr ⟨hshape, hinput.filter _, ?_⟩
  rintro k hk _ hk' rfl
  have hdeclared := (Entries.hasKey_iff shape k).mpr hk
  simp [hdeclared] at hk'

theorem forall_declaredFates {P : String × KeyFate → Prop}
    (h : ∀ k s, P (k, .ofDeclared arena input k s)) :
    ∀ e ∈ declaredFates arena shape input, P e := by
  intro e he
  obtain ⟨d, -, rfl⟩ := List.mem_map.mp he
  exact h d.1 d.2

theorem forall_undeclaredFates {P : String × KeyFate → Prop}
    (h : ∀ k v, P (k, .ofUndeclared unknown v)) :
    ∀ e ∈ undeclaredFates shape unknown input, P e := by
  intro e he
  obtain ⟨d, -, rfl⟩ := List.mem_map.mp he
  exact h d.1 d.2

/-- A declared key is missing, or it is parsed as a part. -/
theorem ofDeclared_eq (k : String) (s : Schema) :
    KeyFate.ofDeclared arena input k s =
      ((Schema.fieldValue? arena input k s).map (KeyFate.parsed s)).getD .missing := by
  unfold KeyFate.ofDeclared Schema.fieldValue?
  cases input.get? k with
  | some v => rfl
  | none => cases s.acceptsUndefinedIn arena <;> rfl

/-! ## Issues about keys -/

theorem keysWith_append (test : KeyFate → Bool) (fates others : List (String × KeyFate)) :
    keysWith test (fates ++ others) = keysWith test fates ++ keysWith test others := by
  rw [keysWith, List.filter_append, List.map_append]
  rfl

theorem keysWith_eq_nil {test : KeyFate → Bool} {fates : List (String × KeyFate)}
    (h : ∀ e ∈ fates, test e.2 = false) : keysWith test fates = [] := by
  rw [keysWith, List.filter_eq_nil_iff.mpr fun e he => by simp [h e he]]
  rfl

theorem keysWith_isMissing :
    keysWith KeyFate.isMissing (keyFates arena shape unknown input) =
      absentKeys arena shape input := by
  have hundeclared : keysWith KeyFate.isMissing (undeclaredFates shape unknown input) = [] :=
    keysWith_eq_nil (forall_undeclaredFates fun k v => by cases unknown <;> rfl)
  rw [keyFates, keysWith_append, hundeclared, List.append_nil, keysWith, declaredFates,
    List.filter_map, List.map_map]
  refine congrArg (List.map _) (List.filter_congr fun e _ => ?_)
  show (KeyFate.ofDeclared arena input e.1 e.2).isMissing = _
  unfold KeyFate.ofDeclared Entries.hasKey
  cases input.get? e.1 with
  | some v => rfl
  | none => cases e.2.acceptsUndefinedIn arena <;> rfl

theorem keysWith_isUnrecognized :
    keysWith KeyFate.isUnrecognized (keyFates arena shape unknown input) =
      match unknown with
      | .strict => (undeclaredEntries shape input).map Prod.fst
      | _ => [] := by
  have hdeclared : keysWith KeyFate.isUnrecognized (declaredFates arena shape input) = [] := by
    refine keysWith_eq_nil (forall_declaredFates fun k s => ?_)
    rw [ofDeclared_eq]
    cases Schema.fieldValue? arena input k s <;> rfl
  rw [keyFates, keysWith_append, hdeclared, List.nil_append]
  cases unknown with
  | strict =>
      rw [keysWith, undeclaredFates, List.filter_map, List.map_map]
      exact congrArg (List.map _) (List.filter_eq_self.mpr fun _ _ => rfl)
  | _ => exact keysWith_eq_nil (forall_undeclaredFates fun k v => rfl)

/-- An object raises what the fates of its keys say. -/
theorem fateCauses_keyFates :
    fateCauses (keyFates arena shape unknown input) = keyCauses arena shape unknown input := by
  unfold fateCauses keyCauses
  rw [keysWith_isMissing, keysWith_isUnrecognized]
  cases unknown <;> rfl

/-! ## Parts and outputs -/

theorem parsedParts_append (fates others : List (String × KeyFate)) :
    parsedParts (fates ++ others) = parsedParts fates ++ parsedParts others :=
  List.filterMap_append

theorem parsedParts_declaredFates :
    parsedParts (declaredFates arena shape input) = fieldParts arena shape input := by
  rw [parsedParts, declaredFates, List.filterMap_map]
  refine List.filterMap_congr fun e _ => ?_
  show (KeyFate.ofDeclared arena input e.1 e.2).part? e.1 =
    (Schema.fieldValue? arena input e.1 e.2).map fun v => ⟨.field e.1, e.2, v⟩
  rw [ofDeclared_eq]
  cases Schema.fieldValue? arena input e.1 e.2 <;> rfl

theorem parsedParts_undeclaredFates :
    parsedParts (undeclaredFates shape unknown input) = catchallParts shape unknown input := by
  rw [parsedParts, undeclaredFates, List.filterMap_map]
  cases unknown with
  | catchall s => exact congrFun List.filterMap_eq_map' _
  | _ => exact List.filterMap_eq_nil_iff.mpr fun _ _ => rfl

variable (arena shape unknown input) in
/-- An object has the parts that the fates of its keys say. -/
theorem parsedParts_keyFates :
    parsedParts (keyFates arena shape unknown input) = objectParts arena shape unknown input := by
  rw [keyFates, parsedParts_append, parsedParts_declaredFates, parsedParts_undeclaredFates]
  rfl

/-- The output has no other keys than those with a fate, in their order. -/
theorem keptKeys_sublist (f : Part → Value) (fates : List (String × KeyFate)) :
    ((keptKeys f fates).map Prod.fst).Sublist (fates.map Prod.fst) := by
  induction fates with
  | nil => exact .slnil
  | cons e fates ih =>
      rw [keptKeys] at ih ⊢
      rw [List.filterMap_cons, List.map_cons]
      cases e.2.kept? f e.1 with
      | none => exact ih.cons _
      | some w => exact ih.cons_cons _

/-- Keys of which none is copied are kept when their parts are. -/
theorem keptKeys_eq (f : Part → Value) {fates : List (String × KeyFate)}
    (h : ∀ e ∈ fates, ∀ v, e.2 ≠ .copied v) :
    keptKeys f fates = keptEntries (parsedParts fates) ((parsedParts fates).map f) := by
  rw [keptEntries_map, parsedParts, List.filterMap_filterMap, keptKeys]
  refine List.filterMap_congr fun e he => ?_
  cases hfate : e.2 with
  | parsed s v =>
      unfold KeyFate.part? KeyFate.kept?
      cases hu : (f ⟨.field e.1, s, v⟩).isUndefined <;> simp [hu, Segment.text]
  | copied v => exact absurd hfate (h e he v)
  | _ => rfl

theorem keptKeys_undeclaredFates (f : Part → Value) :
    keptKeys f (undeclaredFates shape unknown input) =
      keptEntries (catchallParts shape unknown input)
          ((catchallParts shape unknown input).map f) ++
        Schema.keptUndeclared shape unknown input := by
  by_cases hpolicy : unknown = .passthrough
  · subst hpolicy
    rw [keptKeys, undeclaredFates, List.filterMap_map]
    exact List.filterMap_some
  · have hfates : ∀ e ∈ undeclaredFates shape unknown input, ∀ v, e.2 ≠ .copied v := by
      refine forall_undeclaredFates fun k v w => ?_
      cases unknown with
      | passthrough => exact absurd rfl hpolicy
      | _ => exact nofun
    have hnone : Schema.keptUndeclared shape unknown input = [] := by
      cases unknown with
      | passthrough => exact absurd rfl hpolicy
      | _ => rfl
    rw [keptKeys_eq f hfates, parsedParts_undeclaredFates, hnone, List.append_nil]

/-- The entries of the output are those that the fates of the keys say. -/
theorem objectOutput_keyFates (hshape : shape.keys.Nodup) (hinput : input.keys.Nodup)
    (f : Part → Value) :
    objectOutput arena shape unknown input ((objectParts arena shape unknown input).map f) =
      ⟨keptKeys f (keyFates arena shape unknown input)⟩ := by
  have hdeclared : ∀ e ∈ declaredFates arena shape input, ∀ v, e.2 ≠ .copied v := by
    refine forall_declaredFates fun k s v => ?_
    rw [ofDeclared_eq]
    cases Schema.fieldValue? arena input k s <;> exact nofun
  have hkept : keptEntries (objectParts arena shape unknown input)
      ((objectParts arena shape unknown input).map f) ++ Schema.keptUndeclared shape unknown input =
        keptKeys f (keyFates arena shape unknown input) := by
    have happend : keptKeys f (keyFates arena shape unknown input) = _ := List.filterMap_append
    rw [happend]
    show _ = keptKeys f _ ++ keptKeys f _
    rw [keptKeys_eq f hdeclared, parsedParts_declaredFates, keptKeys_undeclaredFates,
      ← List.append_assoc, keptEntries_map, keptEntries_map, keptEntries_map, objectParts,
      List.filterMap_append]
  have hnodup := (nodup_keyFates arena unknown hshape hinput).sublist (keptKeys_sublist f _)
  rw [← hkept] at hnodup
  rw [objectOutput, Entries.ofList_insertAll hnodup, hkept]

end Fates

theorem Validation.issues_after (is : List Issue) (o : Validation) :
    (Validation.after is o).issues = is ++ if is.isEmpty then o.issues else [] := by
  cases is with
  | nil => rfl
  | cons i is => exact (List.append_nil _).symm

/-! ## Parts that never stop -/

namespace Outcome

theorem misuse?_of_ok : ∀ {os : List Outcome}, (∀ o ∈ os, ∃ r, o = .ok r) → misuse? os = none
  | [], _ => rfl
  | o :: os, h => by
      obtain ⟨⟨r, rfl⟩, hos⟩ := List.forall_mem_cons.mp h
      show misuse? os = none
      exact misuse?_of_ok hos

/-- All issues of visits count that never stop, if none is a misuse. -/
theorem gather_false_of_ok {visit : Visit → Outcome} {ts : List Visit}
    (h : ∀ t ∈ ts, ∃ r, visit t = .ok r) :
    gather false (ts.map visit) =
      .ok (ts.flatMap fun t => (visit t).issues, (ts.map visit).filterMap output?) := by
  rw [gather_false_eq, misuse?_of_ok (List.forall_mem_map.mpr h), List.flatMap_map]

end Outcome

/-- Parts that do not stop early, in a call that is not misuse: all their issues count, and
without one an output is put together from theirs. -/
theorem Plan.parts_false_eq_ok {mode : Mode} {visit : Visit → Outcome} {own : List Issue}
    {ts : List Visit} {build : List Value → Validation} {r : Validation}
    (h : (Plan.parts own false ts build).outcome mode visit = .ok r) :
    (∀ t ∈ ts, ∃ o, visit t = .ok o) ∧
      r = .after (own ++ ts.flatMap fun t => (visit t).issues)
        (build (ts.map fun t => (visit t).output)) := by
  rw [outcome, Outcome.gather_raised fun _ => rfl] at h
  have hok : ∀ t ∈ ts, ∃ o, visit t = .ok o := by
    intro t ht
    cases ho : visit t with
    | ok o => exact ⟨o, rfl⟩
    | error e =>
        cases hm : Outcome.misuse? (ts.map visit) with
        | none => exact absurd (ho ▸ List.mem_map_of_mem ht) (Outcome.misuse?_eq_none hm e)
        | some e =>
            rw [Outcome.gather_false_eq, hm] at h
            cases h
  have hgather := Outcome.gather_false_of_ok hok
  rw [hgather] at h
  have hr : r = .after (own ++ ts.flatMap fun t => (visit t).issues)
      (build ((ts.map visit).filterMap Outcome.output?)) := (Except.ok.inj h).symm
  refine ⟨hok, ?_⟩
  rw [hr]
  by_cases hfound : ts.flatMap (fun t => (visit t).issues) = []
  · rw [hfound] at hgather
    have houtputs : (ts.map visit).filterMap Outcome.output? = ts.map fun t => (visit t).output :=
      (exists_successes_iff (Q := fun ws => (ts.map visit).filterMap Outcome.output? = ws)).mp
        ⟨_, (Outcome.gather_nil_iff false).mp hgather, rfl⟩ |>.2
    rw [houtputs]
  · cases hall : own ++ ts.flatMap fun t => (visit t).issues with
    | nil => exact absurd (List.append_eq_nil_iff.mp hall).2 hfound
    | cons i is => rfl

/-! ## Calls -/

namespace Schema

variable {node : Schema} {call : Call} {path : Path} {shape : Entries Schema}
  {unknown : UnknownKeys Schema} {input : Entries Value}

/-- Issues that do not stop a step are all raised before it. -/
theorem raiseThen_run (call : Call) (v : Value) (rest : Parser (Option Value)) :
    ∀ (causes : List (Cause Issue)) {p : Progress} {own : List Issue},
      p.report.Records path own [] →
      ∃ q, raiseThen call false v rest causes p = rest q ∧ q.calls = p.calls ∧
        q.report.Records path (own ++ causes.map fun c => call.issue c path none v) []
  | [], p, own, hp => ⟨p, rfl, rfl, by rwa [List.map_nil, List.append_nil]⟩
  | c :: cs, p, own, hp => by
      have hraised : (p.report.raise (call.issue c p.report.path none v)).Records path
          (own ++ [call.issue c path none v]) [] := by
        rw [hp.path_eq]
        exact hp.raise _
      obtain ⟨q, hq, hcalls, hr⟩ := raiseThen_run call v rest cs
        (p := { p with report := p.report.raise (call.issue c p.report.path none v) }) hraised
      rw [List.append_assoc] at hr
      exact ⟨q, hq, hcalls, hr⟩

/-- All checks of a node that does not stop early are applied. -/
theorem finishChecks_calls (hstops : node.stops call = false) (v : Value) (p : Progress) :
    (node.finishChecks call (fun _ => true) v p).2.calls =
      p.calls + node.checks.entries.countP (·.kind = .custom) := by
  refine (node.finishChecks_adds call _ v p).trans ?_
  rw [checkCalls, hstops, List.filter_true, namedChecks_false]

/-- The fields of an object are parsed once each, and the checks are applied when nothing was
refused. -/
theorem parseFields_calls {hops : Nat} {parts : List Part} {extra : List (String × Value)}
    {p : Progress} {own : List Issue} (hstops : node.stops call = false)
    (hok : ∀ t ∈ parts.map (Part.visit hops path), ∃ o, t.outcome call = .ok o)
    (hp : p.report.Records path own []) :
    (node.parseFields call (runWithin call hops) parts extra p).2.calls =
      p.calls + partCalls call hops path parts +
        if (own ++ (parts.map (Part.visit hops path)).flatMap fun t =>
          (t.outcome call).issues).isEmpty
        then node.checks.entries.countP (·.kind = .custom) else 0 := by
  have hanswers : AnswersFor (runWithin call hops) hops (Visit.outcome call)
      (parts.map Part.schema) := fun s _ path v => runWithin_answers call hops s path v
  have hcollects := descend_collects call false
    (hanswers.descents path fun t ht => List.mem_map_of_mem ht) hp
  rw [Outcome.gather_false_of_ok hok] at hcollects
  obtain ⟨outs, ⟨q, hq, hr⟩, -⟩ := hcollects
  have hcalls : q.calls = p.calls + partCalls call hops path parts := by
    have h : Adds _ p _ := descend_adds call hops false parts hp.path_eq
    rw [Adds, hq, Plan.runIn_false hok, visitCalls, List.map_map] at h
    exact h
  rw [List.nil_append] at hr
  revert hr
  generalize (parts.map (Part.visit hops path)).flatMap (fun t => (t.outcome call).issues) = is
  intro hr
  have hinvalid : isInvalid q = (.ok (!(own ++ is).isEmpty), q) := by
    rw [← hr.isInvalid_eq]
    rfl
  unfold parseFields
  rw [hstops, bind_eq hq, bind_eq hinvalid]
  cases (own ++ is).isEmpty with
  | true =>
      refine (finishChecks_calls hstops _ q).trans ?_
      rw [hcalls]
      rfl
  | false => exact hcalls

/-- The run of an object on an object. -/
theorem runWithin_object {hops : Nat} (hk : node.kind = .object shape unknown) :
    runWithin call hops node (.object input) =
      raiseThen call (node.stops call) (.object input)
        (node.parseFields call (runWithin call hops)
          (objectParts call.options.arena shape unknown input)
          (keptUndeclared shape unknown input))
        (keyCauses call.options.arena shape unknown input) := by
  refine Eq.trans ?_ (node.parseObject_eq call shape unknown input)
  rw [runWithin_eq, hk]
  cases unknown <;> rfl

/-- An object that does not stop early and is not misused parses each of its parts once. -/
theorem object_calls {hops : Nat} (hk : node.kind = .object shape unknown)
    (hstops : node.stops call = false)
    (hok : ∀ t ∈ (objectParts call.options.arena shape unknown input).map (Part.visit hops path),
      ∃ o, t.outcome call = .ok o) :
    Visit.calls call ⟨hops, node, path, .object input⟩ =
      partCalls call hops path (objectParts call.options.arena shape unknown input) +
        if (((keyCauses call.options.arena shape unknown input).map fun c =>
            call.issue c path none (.object input)) ++
          ((objectParts call.options.arena shape unknown input).map (Part.visit hops path)).flatMap
            fun t => (t.outcome call).issues).isEmpty
        then node.checks.entries.countP (·.kind = .custom) else 0 := by
  obtain ⟨q, hq, hcalls, hr⟩ := raiseThen_run call (p := { report := { path := path } })
    (.object input) (node.parseFields call (runWithin call hops)
      (objectParts call.options.arena shape unknown input) (keptUndeclared shape unknown input))
    (keyCauses call.options.arena shape unknown input) (Report.clean_empty path).records
  show (runWithin call hops node (.object input) { report := { path := path } }).2.calls = _
  rw [runWithin_object hk, hstops, hq, parseFields_calls hstops hok hr, hcalls,
    Nat.zero_add, List.nil_append]

end Schema

/-! ## Accounts of keys -/

/-- The visits of a call to the keys that are parsed. -/
def parsedVisits (call : Call) (fates : List (String × KeyFate)) : List Visit :=
  (parsedParts fates).map (Part.visit (Schema.hopsOf call) .root)

/-- The issues about keys, and then those of the keys that are parsed. -/
def keyFindings (call : Call) (input : Entries Value) (fates : List (String × KeyFate)) :
    List Issue :=
  ((fateCauses fates).map fun c => call.issue c .root none (.object input)) ++
    (parsedVisits call fates).flatMap fun t => (t.outcome call).issues

/-- The keys that are parsed, without missing outputs, and the keys that are copied. -/
def keyOutput (call : Call) (fates : List (String × KeyFate)) : Entries Value :=
  ⟨keptKeys (fun t => (t.visit (Schema.hopsOf call) .root).output call) fates⟩

/-- A call of an object that collects all issues, with a validation and a number of calls,
accounts for keys. -/
structure KeyAccount (node : Schema) (call : Call) (input : Entries Value)
    (fates : List (String × KeyFate)) (r : Validation) (calls : Nat) : Prop where
  /-- Parsing the keys is no misuse. -/
  used : ∀ t ∈ parsedVisits call fates, ∃ o, t.outcome call = .ok o
  /-- All issues about keys and of keys are listed.  Checks of the object come last, and are
  applied only when there is nothing else to list. -/
  issues : r.issues = keyFindings call input fates ++
    if (keyFindings call input fates).isEmpty
    then (node.checked call .root (fun _ => true) (.object (keyOutput call fates))).1 else []
  /-- Each key that is parsed is parsed once, and so is each check applied. -/
  calls : calls = ((parsedVisits call fates).map (Visit.calls call)).sum +
    if (keyFindings call input fates).isEmpty then node.checks.entries.length else 0
  /-- A success gives the outputs of the keys that are parsed and the keys that are copied. -/
  output : ∀ w, r = .success w →
    (∀ t ∈ parsedVisits call fates, t.Succeeds call) ∧ w = .object (keyOutput call fates) ∧
      (keyOutput call fates).keys.Nodup

namespace Schema

theorem issues_finished (node : Schema) (call : Call) (path : Path) (select : CheckKind → Bool)
    (convert : Value → Value) (v : Value) :
    (node.finished call path select convert v).issues = (node.checked call path select v).1 := by
  rw [finished, Validation.issues_after]
  cases (node.checked call path select v).1.isEmpty <;> exact List.append_nil _

theorem stops_of_abortEarly {s : Schema} {call : Call} {b : Bool}
    (h : call.options.abortEarly = some b) : s.stops call = b := by
  unfold stops Call.abortsEarly
  rw [h]
  rfl

/-- The plan of an object that collects all issues, by the fates of its keys. -/
theorem plan_keyFates {s : Schema} {call : Call} {shape : Entries Schema}
    {unknown : UnknownKeys Schema} {input : Entries Value} (hk : s.kind = .object shape unknown)
    (hstops : s.stops call = false) :
    s.plan call .root (.object input) (hopsOf call) =
      .parts ((fateCauses (keyFates call.options.arena shape unknown input)).map fun c =>
          call.issue c .root none (.object input)) false
        (parsedVisits call (keyFates call.options.arena shape unknown input))
        fun ws => s.finished call .root (fun _ => true) (fun w => w)
          (.object (objectOutput call.options.arena shape unknown input ws)) := by
  rw [plan_object hk, ownIssues_object hk, hstops, fateCauses_keyFates,
    parsedVisits, parsedParts_keyFates]
  rfl

/-- The outputs of all keys that are parsed make up the output. -/
theorem objectOutput_visits (call : Call) (unknown : UnknownKeys Schema) {shape : Entries Schema}
    {input : Entries Value} (hshape : shape.keys.Nodup) (hinput : input.keys.Nodup) :
    objectOutput call.options.arena shape unknown input
        ((parsedVisits call (keyFates call.options.arena shape unknown input)).map fun t =>
          (t.outcome call).output) =
      keyOutput call (keyFates call.options.arena shape unknown input) := by
  rw [parsedVisits, parsedParts_keyFates, List.map_map]
  exact objectOutput_keyFates hshape hinput _

/-- A call that collects all issues and is not answered by a cache accounts for the keys that an
object declares, in the order of the shape, and for the others, in the order of the input. -/
theorem object_accounts (s : Schema) (shape : Entries Schema) (unknown : UnknownKeys Schema)
    (input : Entries Value) (mode : Mode) (options : Options) (r : Validation)
    (hs : s.WellBuilt) (hk : s.kind = .object shape unknown) (hinput : input.keys.Nodup)
    (hall : options.abortEarly = some false)
    (hcache : options.cache.bind (·.find? s.id (.object input)) = none)
    (hr : (s.safeParse mode options (.object input)).result = .ok r) :
    (keyFates options.arena shape unknown input).map Prod.fst =
        shape.keys ++ input.keys.filter (fun k => !shape.hasKey k) ∧
      ((keyFates options.arena shape unknown input).map Prod.fst).Nodup ∧
      KeyAccount s ⟨options, mode⟩ input (keyFates options.arena shape unknown input) r
        (s.safeParse mode options (.object input)).calls := by
  have hshape : shape.keys.Nodup := hs.distinct shape unknown hk
  have hnodup := nodup_keyFates options.arena unknown hshape hinput
  have houtput := objectOutput_visits ⟨options, mode⟩ unknown hshape hinput
  have hplan : (s.plan ⟨options, mode⟩ .root (.object input) (hopsOf ⟨options, mode⟩)).outcome mode
      (Visit.outcome ⟨options, mode⟩) = .ok r := by
    rw [← hr, s.safeParse_result mode options _ hcache, Visit.outcome_eq]
    rfl
  rw [plan_keyFates hk (stops_of_abortEarly hall)] at hplan
  obtain ⟨hok, hrr⟩ := Plan.parts_false_eq_ok hplan
  refine ⟨keys_keyFates, hnodup, hok, ?_, ?_, ?_⟩
  · rw [hrr, Validation.issues_after, issues_finished, houtput]
    rfl
  · have hcustom : s.checks.entries.countP (·.kind = .custom) = s.checks.entries.length := by
      refine List.countP_eq_length.mpr fun e he => ?_
      have hsupported := hs.supported e he
      rwa [hk] at hsupported
    have hparts := parsedParts_keyFates options.arena shape unknown input
    rw [parsedVisits, hparts] at hok
    rw [safeParse_calls hcache, rootVisit, object_calls hk (stops_of_abortEarly hall) hok, hcustom,
      ← hparts, ← fateCauses_keyFates, partCalls, parsedVisits, List.map_map]
    rfl
  · rintro w rfl
    obtain ⟨-, hsuccess, hfinished⟩ := Plan.parts_success_iff.mp hplan
    rw [houtput] at hfinished
    obtain ⟨u, hu, rfl⟩ := finished_success_iff.mp hfinished
    have hkept := hs.eq_of_leftBy (fun e => by rw [hk]; exact nofun) hu
    refine ⟨fun t ht => ⟨_, hsuccess t ht⟩, hkept, ?_⟩
    exact hnodup.sublist (keptKeys_sublist _ _)

/-- The text of an object with any further keys that are not null. -/
def pageNode : Schema :=
  ⟨4, .object ⟨[("text", ⟨0, .leaf .string, .empty, {}⟩),
      ("note", ⟨2, .optional ⟨1, .leaf .string, .empty, {}⟩, .empty, {}⟩)]⟩
    (.catchall ⟨3, .effects ⟨5, .leaf .any, .empty, {}⟩
      (.refine .immediate (fun v => !v.isNull) "null"), .empty, {}⟩), .empty, {}⟩

/-- A text after another key, without a note. -/
def pageInput : Entries Value := ⟨[("page", .bool true), ("text", .string "once")]⟩

theorem pageNode_accounts :
    ∃ fates, fates.map Prod.fst = ["text", "note", "page"] ∧
      KeyAccount pageNode ⟨{ abortEarly := some false }, .deferred⟩ pageInput fates
        (.success (.record [("text", .string "once"), ("page", .bool true)])) 1 := by
  have hbuilt : pageNode.WellBuilt := by
    refine ⟨nofun, fun shape unknown hk => ?_⟩
    cases hk
    decide
  obtain ⟨hkeys, -, haccount⟩ := object_accounts pageNode _ _ pageInput .deferred
    { abortEarly := some false } _ hbuilt rfl (by decide) rfl rfl rfl
  exact ⟨_, hkeys, haccount⟩

/-- An object with any keys. -/
def looseNode : Schema := ⟨0, .object .empty .passthrough, .empty, {}⟩

/-- Two keys. -/
def looseInput : Entries Value := ⟨[("left", .null), ("right", .null)]⟩

/-- The same keys, the other way round. -/
def turnedInput : Entries Value := ⟨[("right", .null), ("left", .null)]⟩

/-- Options with a cache that a call has filled. -/
def looseOptions : Options :=
  { abortEarly := some false
    cache := (looseNode.safeParse .immediate { abortEarly := some false, cache := some {} }
      (.object looseInput)).cache }

/-- A cache answers with the keys in the order in which an earlier call has seen them. -/
theorem looseNode_reordered :
    (looseNode.safeParse .immediate looseOptions (.object turnedInput)).result =
        .ok (.success (.object looseInput)) ∧
      (keyOutput ⟨looseOptions, .immediate⟩
        (keyFates none .empty .passthrough turnedInput)).keys = ["right", "left"] ∧
      ¬ KeyAccount looseNode ⟨looseOptions, .immediate⟩ turnedInput
        (keyFates none .empty .passthrough turnedInput) (.success (.object looseInput))
        (looseNode.safeParse .immediate looseOptions (.object turnedInput)).calls := by
  refine ⟨rfl, rfl, fun haccount => ?_⟩
  obtain ⟨-, houtput, -⟩ := haccount.output _ rfl
  exact absurd (congrArg Entries.keys (Value.object.inj houtput)) (by decide)

end Schema

end ValueSchema

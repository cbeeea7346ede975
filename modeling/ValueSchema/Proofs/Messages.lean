import ValueSchema.Proofs.MissingValue
import ValueSchema.Proofs.TranslatedNodes

/-!
# Messages decide nothing

Two calls whose schemas, definitions and options differ in messages only agree in everything
else (`Schema.safeParse_rewords`): in the misuse, in the output, or in the issues one by one.
The issues that a failed union carries agree in the same way, at any depth.

`Schema.silenced` is a schema without messages, and `Call.silenced` a call in which every message
is empty.  What the second one says is what any other call says, with the messages taken away
(`Visit.outcome_silenced`).  So two calls that are the same once silenced agree.
-/

namespace ValueSchema

/-! ## Schemas without messages -/

/-- A check without a message of its own. -/
def CheckEntry.silenced (e : CheckEntry) : CheckEntry := { e with message := none }

/-- Checks without messages. -/
def Checks.silenced (cs : Checks) : Checks := ⟨cs.entries.map CheckEntry.silenced⟩

/-- Settings without messages. -/
def Settings.silenced (s : Settings) : Settings :=
  { s with typeMessage := none, requiredMessage := none }

/-- A schema without the messages of its nodes and checks.  The numbers of nodes go as well,
because setting a message gives a node a new one. -/
def Schema.silenced : Schema → Schema :=
  fold fun s kind => ⟨0, kind.map Prod.snd, s.checks.silenced, s.settings.silenced⟩

/-- An arena whose definitions have no messages. -/
def Arena.silenced (a : Arena) : Arena :=
  { a with slots := a.slots.map fun s => { s with schema := s.schema.map Schema.silenced } }

theorem Schema.silenced_eq (s : Schema) :
    s.silenced = ⟨0, s.kind.map silenced, s.checks.silenced, s.settings.silenced⟩ := by
  rw [silenced, fold_eq, Kind.map_map]

theorem Arena.get?_silenced (a : Arena) (i : SchemaId) :
    a.silenced.get? i = (a.get? i).map Schema.silenced := by
  have hid : a.silenced.id = a.id := rfl
  have hslots : a.silenced.slots[i.index]? = (a.slots[i.index]?).map fun s =>
      { s with schema := s.schema.map Schema.silenced } := List.getElem?_map ..
  unfold get? slot?
  rw [hid, hslots]
  split
  · cases a.slots[i.index]? <;> rfl
  · rfl

/-! ## Builders that set messages -/

theorem Checks.silenced_setLastMessage (cs : Checks) (message : String) :
    (cs.setLastMessage message).silenced = cs.silenced := by
  rw [setLastMessage]
  cases he : cs.entries.getLast? with
  | none => rfl
  | some e =>
      have hentries : cs.entries.dropLast ++ [e] = cs.entries :=
        List.dropLast_append_getLast? e he
      show Checks.mk ((cs.entries.dropLast ++ [{ e with message := some message }]).map _) =
        Checks.mk (cs.entries.map _)
      conv_rhs => rw [← hentries]
      rw [List.map_append, List.map_append]
      rfl

namespace Schema

variable (s : Schema) (message : String) (n : Nat)

/-- The builder for messages changes messages only. -/
theorem silenced_apply_error : ((s.apply (.error message)).run n).1.silenced = s.silenced := by
  show ((s.setError message).run n).1.silenced = s.silenced
  rw [setError]
  split
  · rw [silenced_eq, silenced_eq]
    rfl
  · rw [silenced_eq, silenced_eq, ← s.checks.silenced_setLastMessage message]
    rfl

/-- The builder for the message of a missing value changes messages only. -/
theorem silenced_apply_requiredError :
    ((s.apply (.requiredError message)).run n).1.silenced = s.silenced := by
  rw [silenced_eq, silenced_eq]
  rfl

end Schema

/-! ## Issues without messages -/

mutual

/-- An issue with empty messages, also in the issues that it carries. -/
def Issue.silenced : Issue → Issue
  | ⟨cause, path, _, data⟩ =>
      let cause' := match cause with
        | .invalidUnion issues => .invalidUnion (Issue.silencedAll issues)
        | c => c
      ⟨cause', path, "", data⟩

/-- Issues with empty messages. -/
def Issue.silencedAll : List Issue → List Issue
  | [] => []
  | i :: is => Issue.silenced i :: Issue.silencedAll is

end

theorem Issue.silencedAll_eq_map (is : List Issue) : silencedAll is = is.map silenced := by
  induction is with
  | nil => rfl
  | cons i is ih => rw [silencedAll, ih, List.map_cons]

theorem Issue.silenced_eq (cause : Cause Issue) (path : Path) (message : String) (data : Value) :
    silenced ⟨cause, path, message, data⟩ = ⟨cause.mapIssues silenced, path, "", data⟩ := by
  cases cause with
  | invalidUnion issues =>
      show Issue.mk (.invalidUnion (silencedAll issues)) _ _ _ = _
      rw [silencedAll_eq_map]
      rfl
  | _ => rfl

/-- One issue is another one in other words.  Of the issues that a failed union carries, this is
said again. -/
inductive Issue.Rewords : Issue → Issue → Prop where
  | same {cause : Cause Issue} {path : Path} {message message' : String} {data : Value} :
      Rewords ⟨cause, path, message, data⟩ ⟨cause, path, message', data⟩
  | union {is js : List Issue} {path : Path} {message message' : String} {data : Value} :
      List.Forall₂ Rewords is js →
      Rewords ⟨.invalidUnion is, path, message, data⟩ ⟨.invalidUnion js, path, message', data⟩

/-- Causes that are the same without messages are the same, unless they carry issues. -/
theorem Cause.eq_or_unions_of_mapIssues_eq {f : Issue → Issue} {c c' : Cause Issue}
    (h : c.mapIssues f = c'.mapIssues f) :
    c = c' ∨ ∃ is js, c = .invalidUnion is ∧ c' = .invalidUnion js ∧ is.map f = js.map f := by
  cases c with
  | invalidUnion is =>
      cases c' with
      | invalidUnion js =>
          injection h with his
          exact .inr ⟨is, js, rfl, rfl, his⟩
      | _ => cases h
  | _ =>
      cases c' with
      | invalidUnion js => cases h
      | _ => exact .inl h

mutual

/-- Issues that are the same without messages. -/
theorem Issue.rewords_of_silenced_eq : ∀ {i j : Issue}, i.silenced = j.silenced → i.Rewords j
  | ⟨cause, path, message, data⟩, ⟨cause', path', message', data'⟩, h => by
      rw [silenced_eq, silenced_eq] at h
      injection h with hcause hpath _ hdata
      subst hpath hdata
      rcases Cause.eq_or_unions_of_mapIssues_eq hcause with rfl | ⟨is, js, rfl, rfl, his⟩
      · exact .same
      · exact .union (forall_rewords_of_silenced_eq his)

/-- Lists of issues that are the same without messages. -/
theorem Issue.forall_rewords_of_silenced_eq :
    ∀ {is js : List Issue}, is.map silenced = js.map silenced → List.Forall₂ Issue.Rewords is js
  | [], [], _ => .nil
  | i :: is, j :: js, h => by
      rw [List.map_cons, List.map_cons] at h
      injection h with hi his
      exact .cons (rewords_of_silenced_eq hi) (forall_rewords_of_silenced_eq his)

end

/-! ## Calls without messages -/

/-- A call in which every message is empty. -/
def Call.silenced (c : Call) : Call where
  options :=
    { abortEarly := c.options.abortEarly
      messages := { first := some fun _ => some "" }
      arena := c.options.arena.map Arena.silenced }
  mode := c.mode

/-- What a call says without messages, in terms of what it says. -/
def silencing : Translation where
  schema := Schema.silenced
  message := fun _ => none
  issue := Issue.silenced

theorem silencing_relates (c : Call) : silencing.Relates c c.silenced := by
  have hissue (cause : Cause Issue) (path : Path) (own own' : Option String) (data : Value) :
      c.silenced.issue (cause.mapIssues Issue.silenced) path own data =
        (c.issue cause path own' data).silenced :=
    (Issue.silenced_eq cause path _ data).symm
  exact {
    mode := rfl
    abortEarly := rfl
    kind := fun s => congrArg Schema.kind s.silenced_eq
    checks := fun s => congrArg (fun t => t.checks.entries) s.silenced_eq
    settings := fun s => congrArg Schema.settings s.silenced_eq
    push := fun _ _ => rfl
    issue := fun cause path own data => hissue cause path own own data
    ownIssue := fun cause path own data => hissue cause path none own data
    deferredEffect := fun _ _ => rfl }

theorem silencing_resolves (c : Call) : silencing.Resolves c c.silenced where
  hops := rfl
  depth := by
    show (c.options.arena.map Arena.silenced).map Arena.maxDepth = _
    rw [Option.map_map]
    rfl
  get i := by
    show (c.options.arena.map Arena.silenced).bind (·.get? i) = _
    cases c.options.arena with
    | none => rfl
    | some a => exact a.get?_silenced i
  missingArena _ := rfl
  undefinedId _ := rfl
  depthExceeded _ _ := rfl

/-- Without messages the same keys may be absent. -/
theorem Schema.acceptsUndefinedIn_silenced (c : Call) (s : Schema) :
    s.silenced.acceptsUndefinedIn c.silenced.options.arena =
      s.acceptsUndefinedIn c.options.arena := by
  have hhops : hopsOf c.silenced = hopsOf c :=
    congrArg (·.getD 0) (silencing_resolves c).depth
  rw [Bool.eq_iff_iff, acceptsUndefinedIn_iff_admitsMissing, acceptsUndefinedIn_iff_admitsMissing,
    hhops]
  exact admitsMissing_mapped (silencing_relates c).kind (silencing_resolves c).get

/-- A visit without messages has the outcome of the visit, without messages. -/
theorem Visit.outcome_silenced (c : Call) (t : Visit) :
    (silencing.visit t).outcome c.silenced = silencing.outcome (t.outcome c) := by
  have hreads (u : Visit) : silencing.Reads c c.silenced u :=
    ⟨fun _ _ _ _ _ e _ _ => e.2.acceptsUndefinedIn_silenced c,
      fun i _ => (silencing_resolves c).lazyPlan_translates _ _ _ i⟩
  exact Visit.outcome_translated (P := fun _ => True) (silencing_relates c) (fun u _ => hreads u)
    (fun _ _ _ _ => trivial) trivial

/-! ## Calls that differ in messages -/

/-- Options that differ in messages and in tracing only.  The definitions may differ in
messages too. -/
structure Options.Rewords (options options' : Options) : Prop where
  abortEarly : options.abortEarly = options'.abortEarly
  arena : options.arena.map Arena.silenced = options'.arena.map Arena.silenced

/-- The same misuse, the same output, or the same issues one by one, in other words. -/
inductive Outcome.Rewords : Outcome → Outcome → Prop where
  | misuse (e : Misuse) : Rewords (.error e) (.error e)
  | success (w : Value) : Rewords (.ok (.success w)) (.ok (.success w))
  | failure {is js : Issues} : List.Forall₂ Issue.Rewords is.toList js.toList →
      Rewords (.ok (.failure is)) (.ok (.failure js))

theorem Outcome.rewords_of_silencing_eq {o o' : Outcome}
    (h : silencing.outcome o = silencing.outcome o') : o.Rewords o' := by
  match o, o', h with
  | .error e, .error e', h =>
      obtain rfl : e = e' := Except.error.inj h
      exact .misuse e
  | .ok (.success w), .ok (.success w'), h =>
      injection h with h
      injection h with hw
      exact hw ▸ .success w
  | .ok (.failure is), .ok (.failure js), h =>
      injection h with h
      injection h with his
      injection his with hhead htail
      exact .failure (.cons (Issue.rewords_of_silenced_eq hhead)
        (Issue.forall_rewords_of_silenced_eq htail))

namespace Schema

/-- Calls without a cache on schemas and with options that differ in messages only agree in
everything else. -/
theorem safeParse_rewords (s s' : Schema) (mode : Mode) (options options' : Options) (v : Value)
    (hcache : options.cache = none) (hcache' : options'.cache = none)
    (hoptions : options.Rewords options') (hs : s.silenced = s'.silenced) :
    Outcome.Rewords (s.safeParse mode options v).result (s'.safeParse mode options' v).result := by
  have hcall : Call.silenced ⟨options, mode⟩ = Call.silenced ⟨options', mode⟩ := by
    rw [Call.silenced, Call.silenced, hoptions.abortEarly, hoptions.arena]
  have hhops : hopsOf ⟨options, mode⟩ = hopsOf ⟨options', mode⟩ := by
    have hdepth := congrArg (Option.map Arena.maxDepth) hoptions.arena
    rw [Option.map_map, Option.map_map] at hdepth
    exact congrArg (·.getD 0) hdepth
  have hvisit : silencing.visit (s.rootVisit ⟨options, mode⟩ v) =
      silencing.visit (s'.rootVisit ⟨options', mode⟩ v) := by
    show Visit.mk _ s.silenced _ _ = Visit.mk _ s'.silenced _ _
    rw [hs, rootVisit, rootVisit, hhops]
  refine Outcome.rewords_of_silencing_eq ?_
  rw [safeParse_uncached s mode options v hcache, safeParse_uncached s' mode options' v hcache',
    ← Visit.outcome_silenced, ← Visit.outcome_silenced, hcall, hvisit]

/-- A text or null, with a message for other values that are no text. -/
def wishNode : Schema :=
  ⟨2, .union [⟨0, .leaf .string, .empty, { typeMessage := some "a text, please" }⟩,
    ⟨1, .leaf .null, .empty, {}⟩], .empty, {}⟩

/-- The same with a message for other values that are neither. -/
def bluntNode : Schema :=
  ⟨5, .union [⟨3, .leaf .string, .empty, {}⟩, ⟨4, .leaf .null, .empty, {}⟩], .empty,
    { typeMessage := some "neither text nor null" }⟩

/-- Options that ask for a trace, with a message for what has no other one. -/
def curtOptions : Options := { debug := true, messages := { fallback := some fun _ => some "no" } }

theorem wishNode_rewords :
    Outcome.Rewords (wishNode.safeParse .immediate {} (.bool true)).result
        (bluntNode.safeParse .immediate curtOptions (.bool true)).result ∧
      ∃ is js, (wishNode.safeParse .immediate {} (.bool true)).result = .ok (.failure is) ∧
        (bluntNode.safeParse .immediate curtOptions (.bool true)).result = .ok (.failure js) ∧
        is.head.message = "no union member matched" ∧
        js.head.message = "neither text nor null" := by
  refine ⟨?_, _, _, rfl, rfl, rfl, rfl⟩
  exact safeParse_rewords wishNode bluntNode .immediate {} curtOptions (.bool true) rfl rfl
    ⟨rfl, rfl⟩ rfl

end Schema

end ValueSchema

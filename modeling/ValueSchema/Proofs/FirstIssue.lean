import ValueSchema.Proofs.Run

/-!
# Stopping at the first issue

A call can stop at its first issue or collect all of them.  `Schema.stops_at_first_issue`
compares the two calls, whatever the schema says about stopping.  They succeed together and
with one output.  When the collecting call lists issues, the stopping one reports exactly
one, and it is the first of the list.  Only a failed union at its place may carry fewer
issues, because its members stop early too.

A stopping call goes another way through almost every node.  `Plan.Curtails` relates the
two plans of a node, and `Outcome.Curtails` what they amount to.  Issues are listed by
place and not in the order in which they are raised, so the relation also says that the
issues a node raises itself come before those of its parts in both calls.
-/

namespace ValueSchema

/-! ## Issues that stand for others -/

/-- The same issue, except that a failed union may carry fewer issues, each of them again
in place of another one. -/
inductive Issue.Shortens : Issue → Issue → Prop where
  | refl (i : Issue) : Shortens i i
  | union {is js : List Issue} {path : Path} {message : String} {data : Value} :
      List.SublistForall₂ Shortens is js →
      Shortens ⟨.invalidUnion is, path, message, data⟩ ⟨.invalidUnion js, path, message, data⟩

namespace Issue.Shortens

variable {i j : Issue}

theorem code_eq (h : i.Shortens j) : i.code = j.code := by
  cases h <;> rfl

theorem path_eq (h : i.Shortens j) : i.path = j.path := by
  cases h <;> rfl

theorem message_eq (h : i.Shortens j) : i.message = j.message := by
  cases h <;> rfl

theorem data_eq (h : i.Shortens j) : i.data = j.data := by
  cases h <;> rfl

/-- Only a failed union can be told from the issue that it stands for. -/
theorem cause_eq (h : i.Shortens j) :
    i.cause = j.cause ∨ ∃ is js, i.cause = .invalidUnion is ∧ j.cause = .invalidUnion js ∧
      List.SublistForall₂ Issue.Shortens is js := by
  cases h with
  | refl => exact .inl rfl
  | union hs => exact .inr ⟨_, _, rfl, rfl, hs⟩

end Issue.Shortens

/-- No source of messages looks at the payload of an issue. -/
def Resolvers.IgnorePayloads (r : Resolvers) : Prop :=
  ∀ m ∈ r.first.toList ++ r.fallback.toList, ∀ i j : Issue, i.code = j.code → i.path = j.path →
    i.message = j.message → i.data = j.data → m i = m j

theorem Call.issue_shortens {call : Call} (h : call.options.messages.IgnorePayloads)
    {is js : List Issue} (hs : List.SublistForall₂ Issue.Shortens is js) (path : Path)
    (own : Option String) (data : Value) :
    (call.issue (.invalidUnion is) path own data).Shortens
      (call.issue (.invalidUnion js) path own data) := by
  have hbind : ∀ m : Option MessageMap, (∀ f ∈ m.toList, f ∈ call.options.messages.first.toList ++
        call.options.messages.fallback.toList) →
      m.bind (· ⟨.invalidUnion is, path, "no union member matched", data⟩) =
        m.bind (· ⟨.invalidUnion js, path, "no union member matched", data⟩) := by
    intro m hm
    cases m with
    | none => rfl
    | some f => exact h f (hm f (by simp)) _ _ rfl rfl rfl rfl
  have hfirst := hbind call.options.messages.first fun f hf => List.mem_append_left _ hf
  have hfallback := hbind call.options.messages.fallback fun f hf => List.mem_append_right _ hf
  unfold Call.issue Resolvers.resolve Cause.message
  dsimp only
  rw [hfirst, hfallback]
  exact .union hs

/-! ## Outcomes of the two calls -/

/-- An outcome keeps of another one its output, or only the first of its issues.  Nothing is
said about a misuse. -/
inductive Outcome.Curtails : Outcome → Outcome → Prop where
  | misuse (o : Outcome) (e : Misuse) : Curtails o (.error e)
  | success (w : Value) : Curtails (.ok (.success w)) (.ok (.success w))
  | failure {i : Issue} {is : Issues} :
      i.Shortens is.head → Curtails (.ok (.failure ⟨i, []⟩)) (.ok (.failure is))

namespace Outcome

/-- What steps amount to that all have to succeed: when the first failure ends them, there
are the same outputs, or there is the first issue. -/
theorem gather_curtails {as bs : List Outcome} (h : List.Forall₂ Curtails as bs) :
    ∀ r, gather false bs = .ok r → ∃ is ws, gather true as = .ok (is, ws) ∧
      List.Forall₂ Issue.Shortens is (r.1.take 1) ∧ (r.1 = [] → ws = r.2) := by
  induction h with
  | nil =>
      rintro r ⟨⟩
      exact ⟨[], [], rfl, .nil, fun _ => rfl⟩
  | @cons a b as bs hab _ ih =>
      intro r hr
      cases hab with
      | misuse => cases hr
      | success w =>
          obtain ⟨r', hg, rfl⟩ := map_eq_ok_iff.mp hr
          obtain ⟨is, ws, ha, hi, hw⟩ := ih r' hg
          refine ⟨is, w :: ws, ?_, hi, fun he => by rw [hw he]⟩
          simp [gather, ha, Except.map]
      | @failure i is hi =>
          obtain ⟨r', -, rfl⟩ := map_eq_ok_iff.mp hr
          exact ⟨[i], [], rfl, .cons hi .nil, nofun⟩

theorem misuse?_eq_none_of_curtails {as bs : List Outcome} (h : List.Forall₂ Curtails as bs)
    (hb : misuse? bs = none) : misuse? as = none := by
  induction h with
  | nil => rfl
  | cons hab _ ih =>
      cases hab with
      | misuse => cases hb
      | success w => exact ih hb
      | failure => exact ih hb

theorem gatherMembers_curtails (mode : Mode) {as bs : List Outcome}
    (h : List.Forall₂ Curtails as bs) :
    ∀ r, gatherMembers mode false bs = .ok r → ∃ is ws,
      gatherMembers mode true as = .ok (is, ws) ∧
      List.Forall₂ Issue.Shortens is (r.1.take 1) ∧ (r.1 = [] → ws = r.2) := by
  cases mode with
  | immediate => exact gather_curtails h
  | deferred =>
      intro r hr
      have hr : gatherAll false bs = .ok r := hr
      show ∃ is ws, gatherAll true as = _ ∧ _
      unfold gatherAll at hr ⊢
      cases hb : misuse? bs with
      | some e => simp [hb] at hr
      | none =>
          rw [misuse?_eq_none_of_curtails h hb]
          exact gather_curtails h r (by simpa [hb] using hr)

/-- What steps amount to of which one has to succeed: the same output, or fewer issues. -/
theorem choose_curtails {as bs : List Outcome} (h : List.Forall₂ Curtails as bs) :
    ∀ r, choose bs = .ok r → ∃ r', choose as = .ok r' ∧
      match r', r with
      | .ok w', .ok w => w' = w
      | .error is, .error js => List.SublistForall₂ Issue.Shortens is js
      | _, _ => False := by
  induction h with
  | nil =>
      rintro r ⟨⟩
      exact ⟨.error [], rfl, .nil⟩
  | @cons a b as bs hab _ ih =>
      intro r hr
      cases hab with
      | misuse => cases hr
      | success w =>
          obtain rfl := Except.ok.inj hr
          exact ⟨.ok w, rfl, rfl⟩
      | @failure i js hi =>
          obtain ⟨r, hc, rfl⟩ := map_eq_ok_iff.mp hr
          obtain ⟨r', ha, hr'⟩ := ih r hc
          refine ⟨r'.mapError ([i] ++ ·), by simp [choose, ha, Except.map, Issues.toList], ?_⟩
          cases r' with
          | ok w' =>
              cases r with
              | ok w => exact hr'
              | error ks => exact hr'.elim
          | error is =>
              cases r with
              | ok w => exact hr'.elim
              | error ks =>
                  -- The issues of the member after its first one are left out.
                  have hskip : List.SublistForall₂ Issue.Shortens is (js.tail ++ ks) := by
                    induction js.tail with
                    | nil => exact hr'
                    | cons j tail ih => exact .cons_right ih
                  exact .cons hi hskip

end Outcome

/-! ## Plans of the two calls -/

namespace Plan

/-- One plan does with a first issue what the other one does with all. -/
inductive Curtails : Plan → Plan → Prop where
  | done {a b : Outcome} : a.Curtails b → Curtails (.done a) (.done b)
  | andThen {t : Visit} {next next' : Value → Plan} :
      (∀ w, Curtails (next w) (next' w)) → Curtails (.andThen t next) (.andThen t next')
  | parts {own : List Issue} {ts : List Visit} {build build' : List Value → Validation} :
      (∀ ws, Outcome.Curtails (.ok (build ws)) (.ok (build' ws))) →
      Curtails (.parts (own.take 1) true ts build) (.parts own false ts build')
  | union {ts : List Visit} {refusal refusal' : List Issue → Issue} :
      (∀ is js, List.SublistForall₂ Issue.Shortens is js →
        (refusal is).Shortens (refusal' js)) →
      Curtails (.union ts refusal) (.union ts refusal')
  | intersection {ts : List Visit} {build build' : List Value → Validation} :
      (∀ ws, Outcome.Curtails (.ok (build ws)) (.ok (build' ws))) →
      Curtails (.intersection true ts build) (.intersection false ts build')

theorem Curtails.pass (t : Visit) : Curtails (.pass t) (.pass t) :=
  .andThen fun w => .done (.success w)

variable {early late : Visit → Outcome}

theorem forall_curtails {ts : List Visit} (h : ∀ t ∈ ts, (early t).Curtails (late t)) :
    List.Forall₂ Outcome.Curtails (ts.map early) (ts.map late) :=
  List.forall₂_map_left_iff.mpr (List.forall₂_map_right_iff.mpr (List.forall₂_same.mpr h))

theorem raised_curtails (own : List Issue) :
    List.Forall₂ Outcome.Curtails (Outcome.raised (own.take 1)) (Outcome.raised own) := by
  cases own with
  | nil => exact .nil
  | cons i is => exact .cons (.failure (.refl i)) .nil

theorem conclude_curtails {a b : Except Misuse (List Issue × List Value)}
    {build build' : List Value → Validation}
    (h : ∀ r, b = .ok r → ∃ is ws, a = .ok (is, ws) ∧
      List.Forall₂ Issue.Shortens is (r.1.take 1) ∧ (r.1 = [] → ws = r.2))
    (hbuild : ∀ ws, Outcome.Curtails (.ok (build ws)) (.ok (build' ws))) :
    (conclude a build).Curtails (conclude b build') := by
  cases b with
  | error e => exact .misuse _ e
  | ok r =>
      obtain ⟨js, ws'⟩ := r
      obtain ⟨is, ws, rfl, hi, hw⟩ := h _ rfl
      cases js with
      | nil =>
          cases hi
          obtain rfl := hw rfl
          exact hbuild ws
      | cons j js =>
          cases hi with
          | cons hij hnil =>
              cases hnil
              exact .failure hij

/-- The outcomes of plans are related when those of the visits that they start are. -/
theorem Curtails.outcome (mode : Mode) {pl pl' : Plan} (h : Curtails pl pl') :
    (∀ t, pl'.Starts t → (early t).Curtails (late t)) →
      (pl.outcome mode early).Curtails (pl'.outcome mode late) := by
  induction h with
  | done ho => exact fun _ => ho
  | @andThen t next next' _ ih =>
      intro hv
      have ht := hv t .first
      rw [Plan.outcome, Plan.outcome]
      generalize early t = a at ht
      generalize late t = b at ht
      cases ht with
      | misuse => exact .misuse _ _
      | success w => exact ih w fun u hu => hv u (.next hu)
      | failure hi => exact .failure hi
  | @parts own ts build build' hb =>
      intro hv
      refine conclude_curtails (Outcome.gather_curtails ?_) hb
      exact List.rel_append (raised_curtails own) (forall_curtails fun t ht => hv t (.part ht))
  | @union ts refusal refusal' hr =>
      intro hv
      have hc := Outcome.choose_curtails (forall_curtails fun t ht => hv t (.member ht))
      rw [Plan.outcome, Plan.outcome]
      cases hl : Outcome.choose (ts.map late) with
      | error e => exact .misuse _ e
      | ok r =>
          obtain ⟨r', he, hr'⟩ := hc r hl
          rw [he]
          cases r' with
          | ok w' =>
              cases r with
              | ok w => exact hr' ▸ .success _
              | error js => exact hr'.elim
          | error is =>
              cases r with
              | ok w => exact hr'.elim
              | error js => exact .failure (hr is js hr')
  | @intersection ts build build' hb =>
      intro hv
      exact conclude_curtails
        (Outcome.gatherMembers_curtails mode (forall_curtails fun t ht => hv t (.joined ht))) hb

end Plan

/-! ## Nodes in the two calls -/

/-- A call that stops at the first issue everywhere, or nowhere. -/
def Call.aborting (call : Call) (b : Bool) : Call :=
  { call with options := { call.options with abortEarly := some b } }

namespace Schema

variable (node : Schema) (call : Call) (path : Path)

theorem checkedBy_aborting :
    ∀ (es : List CheckEntry) (v : Value),
      (node.checkedBy (call.aborting true) path true es v).1 =
          (node.checkedBy (call.aborting false) path false es v).1.take 1 ∧
        ((node.checkedBy (call.aborting false) path false es v).1 = [] →
          (node.checkedBy (call.aborting true) path true es v).2 =
            (node.checkedBy (call.aborting false) path false es v).2)
  | [], v => ⟨rfl, fun _ => rfl⟩
  | e :: es, v => by
      rw [checkedBy, checkedBy]
      cases e.check.evaluate v with
      | pass => exact checkedBy_aborting es v
      | rewrite w => exact checkedBy_aborting es w
      | fail received => exact ⟨rfl, fun h => by cases h⟩

/-- Checks raise their first issue in both calls, and leave the same value without one. -/
theorem checked_aborting (select : CheckKind → Bool) (v : Value) :
    (node.checked (call.aborting true) path select v).1 =
        (node.checked (call.aborting false) path select v).1.take 1 ∧
      ((node.checked (call.aborting false) path select v).1 = [] →
        (node.checked (call.aborting true) path select v).2 =
          (node.checked (call.aborting false) path select v).2) :=
  node.checkedBy_aborting call path (node.checks.entries.filter fun e => select e.kind) v

theorem finished_curtails (select : CheckKind → Bool) (convert : Value → Value) (v : Value) :
    Outcome.Curtails (.ok (node.finished (call.aborting true) path select convert v))
      (.ok (node.finished (call.aborting false) path select convert v)) := by
  obtain ⟨hi, hw⟩ := node.checked_aborting call path select v
  unfold finished
  dsimp only
  rw [hi]
  cases hl : (node.checked (call.aborting false) path select v).1 with
  | nil =>
      rw [hw hl]
      exact .success _
  | cons i is => exact .failure (.refl i)

theorem leafValidation_curtails (l : Leaf) (v : Value) :
    Outcome.Curtails (.ok (node.leafValidation (call.aborting true) path v l))
      (.ok (node.leafValidation (call.aborting false) path v l)) := by
  unfold leafValidation
  dsimp only
  cases l.refusal? node.settings (if node.settings.coerces then l.coerce v else v) with
  | some r => exact .failure (.refl _)
  | none => exact node.finished_curtails call path _ _ _

/-- A stopping call keeps the first of the issues that a container raises itself. -/
theorem ownIssues_aborting (v : Value) :
    node.ownIssues (call.aborting true) path v =
      (node.ownIssues (call.aborting false) path v).take 1 := by
  unfold ownIssues
  split
  next => rfl
  next => rfl
  next => exact (node.checked_aborting call path CheckKind.isSize _).1

theorem containerPlan_curtails (v : Value) (hops : Nat) :
    Plan.Curtails (node.containerPlan (call.aborting true) path v hops)
      (node.containerPlan (call.aborting false) path v hops) := by
  have harena : (call.aborting true).options.arena = (call.aborting false).options.arena := rfl
  unfold containerPlan
  rw [harena]
  cases node.parts? v (call.aborting false).options.arena with
  | none => exact .done (.failure (.refl _))
  | some parts =>
      dsimp only
      rw [ownIssues_aborting]
      exact .parts fun ws => node.finished_curtails call path _ _ _

theorem effectValidation_curtails (effect : Effect) (v : Value) :
    Outcome.Curtails (.ok (effectValidation (call.aborting true) path v true effect))
      (.ok (effectValidation (call.aborting false) path v false effect)) := by
  unfold effectValidation
  cases effect with
  | preprocess flavour map => exact .success v
  | refine flavour accepts message =>
      dsimp only
      split
      · exact .success v
      · exact .failure (.refl _)
  | rule findings =>
      dsimp only
      cases findings v with
      | nil => exact .success v
      | cons f fs => exact .failure (.refl _)
  | transform flavour map =>
      dsimp only
      cases map v with
      | ok w => exact .success w
      | error message => exact .failure (.refl _)

theorem effectPlan_curtails (v : Value) (hops : Nat) (inner : Schema) (effect : Effect) :
    Plan.Curtails (node.effectPlan (call.aborting true) path v hops inner effect)
      (node.effectPlan (call.aborting false) path v hops inner effect) := by
  unfold effectPlan
  show Plan.Curtails (if effect.flavour = .deferred ∧ call.mode = .immediate then _ else _)
    (if effect.flavour = .deferred ∧ call.mode = .immediate then _ else _)
  split
  · exact .done (.misuse _ _)
  · cases effect with
    | preprocess flavour map => exact .pass _
    | _ => exact .andThen fun w => .done (effectValidation_curtails call path _ w)

theorem mergeValidation_curtails (v : Value) (outputs : List Value) :
    Outcome.Curtails (.ok (node.mergeValidation (call.aborting true) path v outputs))
      (.ok (node.mergeValidation (call.aborting false) path v outputs)) := by
  unfold mergeValidation
  cases outputs with
  | nil => exact .success v
  | cons w ws =>
      dsimp only
      cases mergeAll? w ws with
      | some merged => exact .success merged
      | none => exact .failure (.refl _)

theorem lazyPlan_curtails (v : Value) (hops : Nat) (id : SchemaId) :
    Plan.Curtails (lazyPlan (call.aborting true) path v hops id)
      (lazyPlan (call.aborting false) path v hops id) := by
  show Plan.Curtails (lazyPlan call path v hops id) (lazyPlan call path v hops id)
  unfold lazyPlan
  cases call.options.arena with
  | none => exact .done (.misuse _ _)
  | some a =>
      cases hops with
      | zero => exact .done (.misuse _ _)
      | succ hops =>
          dsimp only
          cases a.get? id with
          | none => exact .done (.misuse _ _)
          | some s => exact .pass _

/-- The plan of a node in a stopping call does with a first issue what it does with all in a
collecting one. -/
theorem plan_curtails (h : call.options.messages.IgnorePayloads) (v : Value) (hops : Nat) :
    Plan.Curtails (node.plan (call.aborting true) path v hops)
      (node.plan (call.aborting false) path v hops) := by
  have hcontainer := node.containerPlan_curtails call path v hops
  unfold plan
  cases hk : node.kind with
  | leaf l => exact .done (node.leafValidation_curtails call path l v)
  | array e => exact hcontainer
  | set e => exact hcontainer
  | tuple items rest => exact hcontainer
  | object shape unknown => exact hcontainer
  | record key value => exact hcontainer
  | union members => exact .union fun is js hs => Call.issue_shortens h hs path _ v
  | intersection members =>
      exact .intersection fun ws => node.mergeValidation_curtails call path v ws
  | optional inner =>
      dsimp only
      split
      · exact .done (.success v)
      · exact .pass _
  | nullable inner =>
      dsimp only
      split
      · exact .done (.success v)
      · exact .pass _
  | default inner value => exact .pass _
  | brand inner name => exact .pass _
  | effects inner effect => exact node.effectPlan_curtails call path v hops inner effect
  | pipeline input output => exact .andThen fun w => .pass _
  | lazy id => exact lazyPlan_curtails call path v hops id

end Schema

/-- A visit of a stopping call has the outcome of the collecting call, cut down to its first
issue. -/
theorem Visit.outcome_curtails {call : Call} (h : call.options.messages.IgnorePayloads)
    (t : Visit) : (t.outcome (call.aborting true)).Curtails (t.outcome (call.aborting false)) := by
  induction t using Visit.induction (call.aborting false) with
  | h t ih =>
      rw [Visit.outcome_eq, Visit.outcome_eq]
      exact (t.schema.plan_curtails call t.path h t.value t.hops).outcome call.mode ih

namespace Schema

/-- When a call that collects all issues lists some, the call that stops early reports just
one: the first of the list, whose nested issues may be fewer if it is a failed union.  When
the collecting call succeeds, the stopping one succeeds with the same output. -/
theorem stops_at_first_issue (s : Schema) (mode : Mode) (options : Options) (v : Value)
    (hcache : options.cache = none) (hmaps : options.messages.IgnorePayloads) :
    let result (stops : Bool) :=
      (s.safeParse mode { options with abortEarly := some stops } v).result
    (∀ is, result false = .ok (.failure is) → ∃ i, result true = .ok (.failure ⟨i, []⟩) ∧
      i.code = is.head.code ∧ i.path = is.head.path ∧ i.message = is.head.message ∧
      i.data = is.head.data ∧
      (i.cause = is.head.cause ∨ ∃ js ks, i.cause = .invalidUnion js ∧
        is.head.cause = .invalidUnion ks ∧ List.SublistForall₂ Issue.Shortens js ks)) ∧
    ∀ w, result false = .ok (.success w) → result true = .ok (.success w) := by
  intro result
  have hresult : ∀ b, result b = (s.rootVisit ⟨options, mode⟩ v).outcome
      (Call.aborting ⟨options, mode⟩ b) := fun b => s.safeParse_uncached mode _ v hcache
  have hcall : (Call.mk options mode).options.messages.IgnorePayloads := hmaps
  have hcurtails := (s.rootVisit ⟨options, mode⟩ v).outcome_curtails hcall
  rw [← hresult, ← hresult] at hcurtails
  refine ⟨fun is his => ?_, fun w hw => ?_⟩
  · rw [his] at hcurtails
    generalize result true = o at hcurtails ⊢
    cases hcurtails with
    | @failure i _ hi =>
        exact ⟨i, rfl, hi.code_eq, hi.path_eq, hi.message_eq, hi.data_eq, hi.cause_eq⟩
  · rw [hw] at hcurtails
    generalize result true = o at hcurtails ⊢
    cases hcurtails with
    | success => rfl

/-- A list of pairs of a text and a truth value, or null in the place of a pair. -/
def answersNode : Schema :=
  let pair : Schema :=
    ⟨2, .tuple [⟨0, .leaf .string, .empty, {}⟩, ⟨1, .leaf .boolean, .empty, {}⟩] none, .empty, {}⟩
  ⟨5, .array ⟨4, .union [pair, ⟨3, .leaf .null, .empty, {}⟩], .empty, {}⟩, .empty, {}⟩

/-- A pair with two wrong items, and a truth value in the place of a pair. -/
def wrongAnswers : Value := .array [.array [.null, .null], .bool true]

/-- What is wrong with them, with all issues of the members at the first place. -/
def answersIssues : Issues :=
  ⟨⟨.invalidUnion
      [⟨.invalidType .string .null, ⟨[.index 0, .index 0]⟩, "expected string, received null", .null⟩,
        ⟨.invalidType .boolean .null, ⟨[.index 0, .index 1]⟩, "expected boolean, received null",
          .null⟩,
        ⟨.invalidType .null .array, ⟨[.index 0]⟩, "expected null, received array",
          .array [.null, .null]⟩],
      ⟨[.index 0]⟩, "no union member matched", .array [.null, .null]⟩,
    [⟨.invalidUnion
      [⟨.invalidType .array .boolean, ⟨[.index 1]⟩, "expected array, received boolean", .bool true⟩,
        ⟨.invalidType .null .boolean, ⟨[.index 1]⟩, "expected null, received boolean", .bool true⟩],
      ⟨[.index 1]⟩, "no union member matched", .bool true⟩]⟩

theorem answersNode_stops_at_first_issue :
    (answersNode.safeParse .deferred { abortEarly := some false } wrongAnswers).result =
        .ok (.failure answersIssues) ∧
      ∃ i, (answersNode.safeParse .deferred { abortEarly := some true } wrongAnswers).result =
        .ok (.failure ⟨i, []⟩) ∧ i.code = "invalid_union" ∧ i.path = ⟨[.index 0]⟩ := by
  have hmaps : ({} : Resolvers).IgnorePayloads := fun m hm => nomatch hm
  have hall : (answersNode.safeParse .deferred { abortEarly := some false } wrongAnswers).result =
      .ok (.failure answersIssues) :=
    (answersNode.safeParse_uncached _ _ _ rfl).trans ((Visit.outcome_eq _ _).trans rfl)
  obtain ⟨i, hi, hcode, hpath, -⟩ :=
    (stops_at_first_issue answersNode .deferred {} wrongAnswers rfl hmaps).1 answersIssues hall
  exact ⟨hall, i, hi, hcode, hpath⟩

end Schema

end ValueSchema

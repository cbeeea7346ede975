import ValueSchema.Proofs.Containers

/-!
# Runs follow plans

Every schema parses every value as the plan of its node says (`Visit.outcome_eq`): the
outcome of a visit is that of its plan, given the outcomes of the visits it starts.  So
what a call says can be worked out without reports and marks, and a statement about
outcomes is proved by an induction on visits (`Visit.induction`).

`Schema.runWithin_answers` ties the outcomes to the runs.  It also says that a run does
not look at what is recorded elsewhere, and that it leaves a report which lists exactly
the issues of its outcome.
-/

namespace ValueSchema

open ValueSchema.Parser

theorem Plan.outcome_pass (mode : Mode) (visit : Visit → Outcome) (t : Visit) :
    (Plan.pass t).outcome mode visit = visit t := by
  rw [pass, Plan.outcome]
  match visit t with
  | .error _ => rfl
  | .ok (.success _) => rfl
  | .ok (.failure _) => rfl

namespace Schema

variable (node : Schema) (call : Call) {visit : Visit → Outcome} {path : Path}

/-! ## Leaves -/

theorem parseLeaf_answers (l : Leaf) (v : Value) :
    (node.parseLeaf call l v).Answers path (.ok (node.leafValidation call path v l)) := by
  intro p hp
  unfold parseLeaf leafValidation
  dsimp only
  generalize (if node.settings.coerces then l.coerce v else v) = w
  cases l.refusal? node.settings w with
  | some r => exact .of_refuse hp call r.1 r.2 w
  | none =>
      refine node.finishChecks_yields call _ _ hp fun out => ?_
      cases node.settings.casts <;> simp

/-! ## Unions and intersections -/

section Members

variable {run : Schema → Runner} {hops : Nat}

theorem memberAnswers {members : List Schema} (h : AnswersFor run hops visit members) (v : Value) :
    List.Forall₂ (fun m o => (m v).Answers path o) (members.map run)
      ((members.map fun s => (⟨hops, s, path, v⟩ : Visit)).map visit) := by
  induction members with
  | nil => exact .nil
  | cons s ss ih =>
      exact .cons (h s (List.mem_cons_self ..) path v)
        (ih fun t ht => h t (List.mem_cons_of_mem _ ht))

theorem parseUnion_answers {members : List Schema} (h : AnswersFor run hops visit members)
    (v : Value) :
    (node.parseUnion call (members.map run) v).Answers path
      ((Plan.union (members.map fun s => ⟨hops, s, path, v⟩) fun is => call.issue
        (.invalidUnion is) path node.settings.typeMessage v).outcome call.mode visit) := by
  intro p hp
  have hc := tryMembers_chooses call (memberAnswers h v) hp.path_eq
  unfold parseUnion Plan.outcome
  match Outcome.choose _, hc with
  | .error e, hc => exact bind_error hc
  | .ok (.ok w), ⟨calls, hr⟩ => exact .of_eq (bind_eq hr) ⟨_, rfl, hp.lists⟩
  | .ok (.error is), ⟨calls, reports, hr, hi⟩ =>
      have hi : reports.flatMap Report.allIssues = is := hi
      refine .of_eq (bind_eq hr) ?_
      dsimp only
      rw [hi]
      exact Yields.of_refuse (p := { p with calls := calls }) hp call _ _ _

theorem parseIntersection_answers {members : List Schema} (h : AnswersFor run hops visit members)
    (v : Value) :
    (node.parseIntersection call (members.map run) v).Answers path
      ((Plan.intersection (node.stops call) (members.map fun s => ⟨hops, s, path, v⟩)
        (node.mergeValidation call path v)).outcome call.mode visit) := by
  intro p hp
  have hc := runMembers_collects call (node.stops call) (memberAnswers h v) hp
  unfold parseIntersection Plan.outcome Plan.conclude
  match Outcome.gatherMembers call.mode (node.stops call) _, hc with
  | .error e, hc => exact bind_error hc
  | .ok (is, ws), ⟨b, ⟨q, hq, hr⟩, hb⟩ =>
      have hl : q.report.Lists path is := hr.lists
      have hinv : isInvalid q = (.ok (!is.isEmpty), q) := by
        rw [← hl.isInvalid_eq]
        rfl
      refine .of_eq (bind_eq hq) ?_
      cases is with
      | cons i is =>
          cases b with
          | none => exact ⟨q, rfl, hl⟩
          | some outs => exact .of_eq (bind_eq hinv) ⟨q, rfl, hl⟩
      | nil =>
          rw [hb rfl]
          refine .of_eq (bind_eq hinv) ?_
          unfold mergeValidation
          cases ws with
          | nil => exact ⟨q, rfl, hl⟩
          | cons w ws =>
              dsimp only [Except.map, Validation.after]
              cases mergeAll? w ws with
              | some merged => exact ⟨q, rfl, hl⟩
              | none => exact .of_refuse hl.records call _ _ _

end Members

/-! ## Steps after another step -/

/-- A step that goes on with the output of a visit. -/
theorem next_answers {x : Parser (Option Value)} {f : Value → Parser (Option Value)} {t : Visit}
    {next : Value → Plan} (mode : Mode) (hx : x.Answers path (visit t))
    (hf : ∀ w, (f w).Answers path ((next w).outcome mode visit)) :
    (do
      match ← x with
      | some w => f w
      | none => return none).Answers path ((Plan.andThen t next).outcome mode visit) := by
  intro p hp
  have hy := hx p hp
  rw [Plan.outcome]
  match visit t, hy with
  | .error e, hy => exact bind_error hy
  | .ok (.success w), ⟨q, hq, hl⟩ => exact .of_eq (bind_eq hq) (hf w q hl.records)
  | .ok (.failure is), ⟨q, hq, hl⟩ => exact ⟨q, bind_eq hq, hl⟩

theorem countCall_answers {x : Parser (Option Value)} {o : Outcome} (hx : x.Answers path o) :
    (countCall >>= fun _ => x).Answers path o := by
  intro p hp
  obtain ⟨q, hq, hr⟩ := countCall_ends hp
  exact .of_eq (bind_eq hq) (hx q hr)

/-! ## Effects -/

theorem raiseFindings_ends (v : Value) :
    ∀ (fs : List Finding) {p : Progress} {own : List Issue}, p.report.Records path own [] →
      (raiseFindings call v fs).Ends p () path
        (own ++ fs.map fun f => call.issue (.custom f.payload) path (some f.message) v) []
  | [], _, _, hp => .of_pure () (by simpa using hp)
  | f :: fs, _, own, hp => by
      refine (raise_ends hp call (.custom f.payload) (some f.message) v).bind fun q hq => ?_
      have ih := raiseFindings_ends v fs hq
      rwa [List.append_assoc] at ih

theorem applyEffect_answers (stops : Bool) (effect : Effect) (v : Value) :
    (applyEffect call stops effect v).Answers path
      (.ok (effectValidation call path v stops effect)) := by
  cases effect with
  | preprocess flavour map => exact fun p hp => ⟨p, rfl, hp.lists⟩
  | refine flavour accepts message =>
      refine countCall_answers fun p hp => ?_
      unfold effectValidation
      dsimp only
      cases accepts v with
      | true => exact ⟨p, rfl, hp.lists⟩
      | false => exact .of_refuse hp call _ _ _
  | rule findings =>
      refine countCall_answers fun p hp => ?_
      unfold effectValidation
      dsimp only
      cases findings v with
      | nil =>
          cases stops <;> exact ⟨p, rfl, hp.lists⟩
      | cons f fs =>
          have hall := raiseFindings_ends call v (if stops then (f :: fs).take 1 else f :: fs) hp
          obtain ⟨q, hq, hr⟩ := hall
          have hl := hr.lists
          rw [List.append_nil, List.nil_append] at hl
          refine .of_eq (bind_eq hq) ?_
          cases stops <;> exact ⟨q, rfl, hl⟩
  | transform flavour map =>
      refine countCall_answers fun p hp => ?_
      unfold effectValidation
      dsimp only
      cases map v with
      | ok w => exact ⟨p, rfl, hp.lists⟩
      | error message => exact .of_refuse hp call _ _ _

theorem parseEffect_answers {run : Schema → Runner} {hops : Nat} {inner : Schema}
    (h : AnswersFor run hops visit [inner]) (effect : Effect) (v : Value) :
    (node.parseEffect call (inner, run inner) effect v).Answers path
      ((node.effectPlan call path v hops inner effect).outcome call.mode visit) := by
  have hinner := h inner (List.mem_cons_self ..) path
  intro p hp
  unfold parseEffect effectPlan
  by_cases hd : effect.flavour = .deferred ∧ call.mode = .immediate
  · rw [if_pos hd, if_pos hd]
    show ((Parser.path >>= fun here => misuse (.deferredEffect effect.name here)) p).1 = _
    rw [bind_eq (path_eq hp)]
    rfl
  · rw [if_neg hd, if_neg hd]
    cases effect with
    | preprocess flavour map =>
        dsimp only
        rw [Plan.outcome_pass]
        exact countCall_answers (hinner (map v)) p hp
    | _ => exact next_answers call.mode (hinner v) (applyEffect_answers call _ _) p hp

/-! ## Lazy nodes -/

theorem follow_answers (hops : Nat) (id : SchemaId) (v : Value)
    (hdef : ∀ n s, hops = n + 1 → (runWithin call n s v).Answers path (visit ⟨n, s, path, v⟩)) :
    (followWithin call hops id v).Answers path
      ((lazyPlan call path v hops id).outcome call.mode visit) := by
  intro p hp
  unfold lazyPlan
  cases hops with
  | zero =>
      unfold followWithin follow
      cases call.options.arena with
      | none => rfl
      | some a =>
          show ((Parser.path >>= fun here => misuse (.depthExceeded a.maxDepth here)) p).1 = _
          rw [bind_eq (path_eq hp)]
          rfl
  | succ n =>
      unfold followWithin follow
      cases call.options.arena with
      | none => rfl
      | some a =>
          dsimp only
          cases a.get? id with
          | none => rfl
          | some s =>
              rw [Plan.outcome_pass]
              exact hdef n s rfl p hp

/-! ## All nodes -/

/-- A node parses a value as its plan says when its inner schemas and the definitions that
lazy nodes name answer the outcomes of visits. -/
theorem parseNode_answers {run : Schema → Runner} {hops : Nat}
    (h : AnswersFor run hops visit node.kind.children)
    (hdef : ∀ n s, hops = n + 1 → ∀ path v,
      (runWithin call n s v).Answers path (visit ⟨n, s, path, v⟩)) (v : Value) :
    (parseNode call (followWithin call hops) node (node.kind.map fun t => (t, run t)) v).Answers
      path ((node.plan call path v hops).outcome call.mode visit) := by
  have hsnd : ∀ members : List Schema,
      (members.map fun t => (t, run t)).map Prod.snd = members.map run := by
    intro members
    rw [List.map_map]
    rfl
  unfold plan
  cases hk : node.kind with
  | leaf l => exact node.parseLeaf_answers call l v
  | array e => exact node.parseArray_answers call hk (by rwa [hk] at h) v
  | set e => exact node.parseSet_answers call hk (by rwa [hk] at h) v
  | tuple items rest =>
      have hrest : (rest.map fun t => (t, run t)).map Prod.snd = rest.map run := by
        rw [Option.map_map]
        rfl
      have ht : Answers _ path _ := node.parseTuple_answers call hk (by rwa [hk] at h) v
      rwa [← hrest] at ht
  | object shape unknown =>
      have hobject : (Kind.object shape unknown).map (fun t => (t, run t)) =
          .object (shape.map fun t => (t, run t)) (besideRuns run unknown) := by
        cases unknown <;> rfl
      rw [hobject]
      exact node.parseObject_answers call hk h v
  | record key value => exact node.parseRecord_answers call hk (by rwa [hk] at h) v
  | union members =>
      have h : AnswersFor run hops visit members := by rwa [hk] at h
      have hm : Answers _ path _ := node.parseUnion_answers call h v
      rwa [← hsnd] at hm
  | intersection members =>
      have h : AnswersFor run hops visit members := by rwa [hk] at h
      have hm : Answers _ path _ := node.parseIntersection_answers call h v
      rwa [← hsnd] at hm
  | optional inner =>
      rw [hk] at h
      show Answers (if v.isUndefined then _ else _) _ _
      split
      · exact fun p hp => ⟨p, rfl, hp.lists⟩
      · rw [Plan.outcome_pass]
        exact h inner (List.mem_cons_self ..) path v
  | nullable inner =>
      rw [hk] at h
      show Answers (if v.isNull then _ else _) _ _
      split
      · exact fun p hp => ⟨p, rfl, hp.lists⟩
      · rw [Plan.outcome_pass]
        exact h inner (List.mem_cons_self ..) path v
  | default inner value =>
      rw [hk] at h
      rw [Plan.outcome_pass]
      exact h inner (List.mem_cons_self ..) path _
  | brand inner name =>
      rw [hk] at h
      rw [Plan.outcome_pass]
      exact h inner (List.mem_cons_self ..) path v
  | effects inner effect => exact node.parseEffect_answers call (by rwa [hk] at h) effect v
  | pipeline input output =>
      rw [hk] at h
      refine next_answers call.mode (h input (List.mem_cons_self ..) path v) fun w => ?_
      rw [Plan.outcome_pass]
      exact h output (List.mem_cons_of_mem _ (List.mem_cons_self ..)) path w
  | lazy id => exact follow_answers call hops id v fun n s hn => hdef n s hn path v

/-! ## Runs -/

/-- The induction behind `runWithin_answers`: on the lazy nodes that may still be resolved,
and then on schemas. -/
theorem runWithin_answers_plan (hops : Nat) (s : Schema) :
    ∀ path v, (runWithin call hops s v).Answers path
      ((s.plan call path v hops).outcome call.mode (Visit.outcome call)) := by
  induction hops using Nat.strongRecOn generalizing s with
  | ind hops ihops =>
      induction s using Schema.induction with
      | h s ih =>
          intro path v
          rw [runWithin_eq]
          refine s.parseNode_answers call (fun t ht path v => ?_) (fun n s hn path v => ?_) v
          · -- What the run of an inner schema yields everywhere is the outcome of its visit.
            have hrun := ih t ht path v
            rwa [← hrun.outcome_eq] at hrun
          · have hrun := ihops n (by omega) s path v
            rwa [← hrun.outcome_eq] at hrun

end Schema

/-- The outcome of a visit is that of its plan. -/
theorem Visit.outcome_eq (call : Call) (t : Visit) :
    t.outcome call = (t.plan call).outcome call.mode (Visit.outcome call) :=
  (t.schema.runWithin_answers_plan call t.hops t.path t.value).outcome_eq

/-- Whatever the cache remembers for a call is what the call finds out without it. -/
def Options.Truthful (options : Options) (s : Schema) (mode : Mode) (v : Value) : Prop :=
  ∀ r, options.cache.bind (·.find? s.id v) = some r → (s.parseFresh ⟨options, mode⟩ v).1 = .ok r

namespace Schema

/-- Wherever a schema runs, it yields the outcome of its visit. -/
theorem runWithin_answers (call : Call) (hops : Nat) (s : Schema) (path : Path) (v : Value) :
    (runWithin call hops s v).Answers path (Visit.outcome call ⟨hops, s, path, v⟩) := by
  rw [Visit.outcome_eq]
  exact s.runWithin_answers_plan call hops path v

/-- The visit that a call makes. -/
def rootVisit (s : Schema) (call : Call) (v : Value) : Visit := ⟨hopsOf call, s, .root, v⟩

/-- A call without a cache gives the outcome of its visit. -/
theorem parseFresh_fst (s : Schema) (call : Call) (v : Value) :
    (s.parseFresh call v).1 = (s.rootVisit call v).outcome call := rfl

/-- A call gives the outcome of its visit when its cache remembers nothing else for it. -/
theorem safeParse_of_truthful {s : Schema} {mode : Mode} {options : Options} {v : Value}
    (h : options.Truthful s mode v) :
    (s.safeParse mode options v).result =
      (s.rootVisit ⟨options, mode⟩ v).outcome ⟨options, mode⟩ := by
  rw [← parseFresh_fst, safeParse]
  split
  next r hr => exact (h r hr).symm
  next => rfl

/-- A call whose cache does not know the value gives the outcome of its visit. -/
theorem safeParse_result (s : Schema) (mode : Mode) (options : Options) (v : Value)
    (h : options.cache.bind (·.find? s.id v) = none) :
    (s.safeParse mode options v).result =
      (s.rootVisit ⟨options, mode⟩ v).outcome ⟨options, mode⟩ := by
  refine safeParse_of_truthful fun r hr => ?_
  cases h.symm.trans hr

theorem safeParse_uncached (s : Schema) (mode : Mode) (options : Options) (v : Value)
    (h : options.cache = none) :
    (s.safeParse mode options v).result =
      (s.rootVisit ⟨options, mode⟩ v).outcome ⟨options, mode⟩ := by
  refine s.safeParse_result mode options v ?_
  rw [h]
  rfl

end Schema

end ValueSchema

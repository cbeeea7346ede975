import ValueSchema.Proofs.CallCounts

/-!
# What a visit calls

A visit calls the functions of its node, and then there are the calls of the visits that its plan
makes.  `Schema.ownCalls` counts what the node calls itself, in terms of the outcomes of these
visits.  `Visit.calls_eq` says that the count of a visit is the sum, and it has one lemma for each
kind of node.
-/

namespace ValueSchema

open ValueSchema.Parser

/-! ## Containers -/

namespace Schema

variable (node : Schema) (call : Call) {hops : Nat} {path : Path} {p : Progress}

/-- How many functions of the user's a container calls itself. -/
def containerCalls (path : Path) (v : Value) (hops : Nat) (visit : Visit → Outcome) : Nat :=
  match node.parts? v call.options.arena with
  | none => 0
  | some parts =>
      Outcome.afterAll (Outcome.gather (node.stops call)
        (Outcome.raised (node.ownIssues call path v) ++
          (parts.map (Part.visit hops path)).map visit)) fun ws =>
        node.checkCalls call node.runsLater (node.assemble v parts ws)

/-- What a container calls, with its parts. -/
def containerTotal (path : Path) (v : Value) (hops : Nat) : Nat :=
  node.containerCalls call path v hops (Visit.outcome call) +
    visitCalls call ((node.containerPlan call path v hops).made call.mode (Visit.outcome call))

/-- A refusal calls nothing. -/
theorem refuse_adds {v : Value} {cause : Cause Issue} {own : Option String} {data : Value}
    (h : node.parts? v call.options.arena = none) :
    (refuse call cause own data : Parser (Option Value)).Adds p
      (node.containerTotal call path v hops) := by
  unfold containerTotal containerCalls containerPlan
  rw [h]
  rfl

theorem container_adds {v : Value} {parts : List Part} {own : List Issue}
    {x : Parser (Option Value)} {k : List (Option Value) → Parser (Option Value)}
    (hparts : node.parts? v call.options.arena = some parts)
    (hown : node.ownIssues call path v = own)
    (hx : x.Tallies none k p path
      (visitCalls call (Plan.descendedIn call.mode own (node.stops call) (Visit.outcome call)
        (parts.map (Part.visit hops path))))
      (Outcome.gather (node.stops call) (Outcome.raised own ++
        (parts.map (Part.visit hops path)).map (Visit.outcome call))))
    (hk : ∀ (ws : List Value) (q : Progress), (k (ws.map some)).Adds q
      (node.checkCalls call node.runsLater (node.assemble v parts ws))) :
    x.Adds p (node.containerTotal call path v hops) := by
  have hadds := hx.adds hk
  unfold containerTotal containerCalls containerPlan
  rw [hparts, hown]
  exact hadds

/-- A container that is measured first. -/
theorem sized_tallies {γ : Type} {parts : List Part} (container : Value)
    (descents : Value → List Descent)
    (hd : descents container = parts.map (Part.descent (runWithin call hops)))
    (k : List (Option Value) → Parser (Option γ)) (hp : p.report.Records path [] []) :
    (do
      let (sized, w) ← node.runChecks call CheckKind.isSize container
      if !sized && node.stops call then return none
      else
        let outs ← Parser.descend call (node.stops call) (descents w)
        if ← Parser.isInvalid then return none else k outs).Tallies none k p path
      (visitCalls call (Plan.descendedIn call.mode
        (node.checked call path CheckKind.isSize container).1 (node.stops call)
        (Visit.outcome call) (parts.map (Part.visit hops path))))
      (Outcome.gather (node.stops call)
        (Outcome.raised (node.checked call path CheckKind.isSize container).1 ++
          (parts.map (Part.visit hops path)).map (Visit.outcome call))) := by
  obtain ⟨q, hq, hr⟩ := node.runChecks_ends call CheckKind.isSize container hp
  have hsilent : (node.runChecks call CheckKind.isSize container).Adds p 0 := by
    rw [← node.checkCalls_isSize call container]
    exact node.runEntries_adds call _ _ container p
  rw [Adds, hq] at hsilent
  rw [List.nil_append] at hr
  refine .of_eq (bind_eq hq) hsilent ?_
  by_cases hs : (node.checked call path CheckKind.isSize container).1 ≠ [] ∧ node.stops call = true
  · rw [hs.2]
    refine .of_eq ?_ rfl (.of_own none k hr hs.1 _ _)
    exact congrFun (if_pos (by simpa using hs.1)) q
  · have hown : (node.checked call path CheckKind.isSize container).1 ≠ [] →
        node.stops call = false := by simpa using hs
    refine .of_eq ?_ rfl (descend_tallies none k hr hown)
    rw [node.checked_isSize_snd, ← hd]
    exact congrFun (if_neg (by simpa using hs)) q

theorem parseItems_tallies (e : Schema) (container : Value) (hp : p.report.Records path [] []) :
    (node.parseItems call (runWithin call hops e) container).Tallies none
      (fun outs => pure (outs.mapM fun out => out)) p path
      (visitCalls call (Plan.descendedIn call.mode
        (node.checked call path CheckKind.isSize container).1 (node.stops call)
        (Visit.outcome call) ((itemParts e container.items).map (Part.visit hops path))))
      (Outcome.gather (node.stops call)
        (Outcome.raised (node.checked call path CheckKind.isSize container).1 ++
          ((itemParts e container.items).map (Part.visit hops path)).map (Visit.outcome call))) :=
  node.sized_tallies call container
    (fun w => w.items.mapIdx fun i t => ⟨.index i, runWithin call hops e t⟩)
    (itemDescents_eq e container.items) _ hp

theorem items_adds {e : Schema} {v container : Value} (put : List Value → Value)
    (convert : Value → Value)
    (hparts : node.parts? v call.options.arena = some (itemParts e container.items))
    (hown : node.ownIssues call path v = (node.checked call path CheckKind.isSize container).1)
    (hlater : ∀ k, node.runsLater k = !k.isSize)
    (hput : ∀ ws, node.assemble v (itemParts e container.items) ws = put ws)
    (hp : p.report.Records path [] []) :
    (do
      match ← node.parseItems call (runWithin call hops e) container with
      | none => return none
      | some items =>
          return (← node.finishChecks call (!·.isSize) (put items)).map convert :
        Parser (Option Value)).Adds p (node.containerTotal call path v hops) := by
  have hselect : node.runsLater = fun k => !k.isSize := funext hlater
  refine node.container_adds call hparts hown
    ((node.parseItems_tallies call e container hp).bind rfl) fun ws q => ?_
  rw [mapM_some, hselect, hput]
  exact Adds.map (node.finishChecks_adds call _ _ q)

theorem parseArray_adds {e : Schema} (hk : node.kind = .array e) (v : Value)
    (hp : p.report.Records path [] []) :
    (node.parseArray call (runWithin call hops e) v).Adds p
      (node.containerTotal call path v hops) := by
  have hin : node.settings.arrayInput v = node.containerInput v := by simp only [containerInput, hk]
  unfold parseArray
  rw [hin]
  dsimp only
  split
  next items hv =>
      rw [hv]
      refine node.items_adds call .array node.settings.arrayOutput ?_ ?_ (fun k => ?_)
        (fun ws => ?_) hp
      · simp only [parts?, hk, hv, Value.items, Value.asItems?, Option.getD_some]
      · simp only [ownIssues, hk, hv]
      · simp only [runsLater, hk]
      · simp only [assemble, hk]
  next hv =>
      refine node.refuse_adds call ?_
      simp only [parts?, hk]
      split <;> simp_all

theorem parseSet_adds {e : Schema} (hk : node.kind = .set e) (v : Value)
    (hp : p.report.Records path [] []) :
    (node.parseSet call (runWithin call hops e) v).Adds p
      (node.containerTotal call path v hops) := by
  have hin : node.settings.setInput v = node.containerInput v := by simp only [containerInput, hk]
  unfold parseSet
  rw [hin]
  dsimp only
  split
  next items hv =>
      rw [hv]
      refine node.items_adds call (fun ws => .set (Value.distinct ws)) node.settings.setOutput
        ?_ ?_ (fun k => ?_) (fun ws => ?_) hp
      · simp only [parts?, hk, hv, Value.items, Value.asItems?, Option.getD_some]
      · simp only [ownIssues, hk, hv]
      · simp only [runsLater, hk]
      · simp only [assemble, hk]
  next hv =>
      refine node.refuse_adds call ?_
      simp only [parts?, hk]
      split <;> simp_all

theorem parseTuple_adds {items : List Schema} {rest : Option Schema}
    (hk : node.kind = .tuple items rest) (v : Value) (hp : p.report.Records path [] []) :
    (node.parseTuple call (items.map fun s => (s, runWithin call hops s))
      (rest.map (runWithin call hops)) v).Adds p (node.containerTotal call path v hops) := by
  have hin : node.settings.arrayInput v = node.containerInput v := by simp only [containerInput, hk]
  have hslots : ((items.map fun s => (s, runWithin call hops s)).filter fun s =>
      !s.1.settings.discarded).map Prod.snd = (slots items).map (runWithin call hops) := by
    rw [List.filter_map, List.map_map]
    rfl
  unfold parseTuple
  rw [hin, hslots]
  dsimp only
  split
  next values hv =>
      rw [List.length_map, Option.isSome_map]
      have harity : node.wrongArity? v =
          arityFailure? (slots items).length values.length rest.isSome := by
        simp only [wrongArity?, hk, hv]
      split
      next failure hf =>
          refine node.refuse_adds call ?_
          simp only [parts?, hk, hv, harity, hf, Option.isSome_some, if_true]
      next hf =>
          have hparts : node.parts? v call.options.arena =
              some (tupleParts rest 0 (slots items) values) := by
            simp only [parts?, hk, hv, harity, hf, Option.isSome_none]
            rfl
          have hown : node.ownIssues call path v = [] := by simp only [ownIssues, hk]
          have hlater : node.runsLater = fun _ => true := by
            funext k
            simp only [runsLater, hk]
          rw [tupleDescents_eq]
          refine node.container_adds call hparts hown
            (descend_tallies none _ hp fun hne => absurd rfl hne) fun ws q => ?_
          have hws : (ws.map some).filterMap (fun out => out) = ws := by simp
          rw [hws, hlater]
          simp only [assemble, hk]
          exact node.finishChecks_adds call _ _ q
  next hv =>
      refine node.refuse_adds call ?_
      simp only [parts?, hk]
      split <;> simp_all

/-- Issues that are raised before a descent call nothing. -/
theorem raiseThen_tallies {stops : Bool} {v : Value} {rest : Parser (Option Value)}
    {k : List (Option Value) → Parser (Option Value)} {ts : List Visit} {os : List Outcome}
    (hrest : ∀ (q : Progress) (own : List Issue), q.report.Records path own [] →
      (own ≠ [] → stops = false) →
      rest.Tallies none k q path
        (visitCalls call (Plan.descendedIn call.mode own stops (Visit.outcome call) ts))
        (Outcome.gather stops (Outcome.raised own ++ os))) :
    ∀ (causes : List (Cause Issue)) {q : Progress} {own : List Issue},
      q.report.Records path own [] → (own ≠ [] → stops = false) →
      (raiseThen call stops v rest causes).Tallies none k q path
        (visitCalls call (Plan.descendedIn call.mode (own ++
          (let issues := causes.map fun c => call.issue c path none v
          if stops then issues.take 1 else issues)) stops (Visit.outcome call) ts))
        (Outcome.gather stops (Outcome.raised (own ++
          (let issues := causes.map fun c => call.issue c path none v
          if stops then issues.take 1 else issues)) ++ os))
  | [], q, own, hq, hown => by simpa [raiseThen] using hrest q own hq hown
  | c :: cs, q, own, hq, hown => by
      obtain ⟨q', hq', hr⟩ := raise_ends hq call c none v
      have hcalls : q'.calls = q.calls := (congrArg (fun r => r.2.calls) hq').symm
      refine .of_eq (bind_eq hq') hcalls ?_
      cases stops with
      | true =>
          -- A node that stops early has raised nothing before this issue.
          have hnil : own = [] := by
            by_contra hne
            cases hown hne
          subst hnil
          exact .of_own none k hr (List.cons_ne_nil _ _) ts os
      | false =>
          have ih := raiseThen_tallies (v := v) hrest cs hr fun _ => rfl
          rwa [List.append_assoc] at ih

theorem parseObject_adds {shape : Entries Schema} {unknown : UnknownKeys Schema}
    (hk : node.kind = .object shape unknown) (v : Value) (hp : p.report.Records path [] []) :
    (node.parseObject call (shape.map fun s => (s, runWithin call hops s))
      (besideRuns (runWithin call hops) unknown) v).Adds p
      (node.containerTotal call path v hops) := by
  have hin : node.containerInput v = v := by simp only [containerInput, hk]
  cases v with
  | object input =>
      rw [parseObject_eq]
      have hparts : node.parts? (.object input) call.options.arena =
          some (fieldParts call.options.arena shape input ++
            catchallParts shape unknown input) := by
        simp only [parts?, hk, hin]
      have hown : node.ownIssues call path (.object input) =
          (let issues := (keyCauses call.options.arena shape unknown input).map fun c =>
            call.issue c path none (.object input)
          if node.stops call then issues.take 1 else issues) := by
        simp only [ownIssues, hk, hin]
      have hlater : node.runsLater = fun _ => true := by
        funext k
        simp only [runsLater, hk]
      refine node.container_adds call hparts hown (raiseThen_tallies call
        (fun q own hq hown => descend_tallies none _ hq hown) _ hp fun hne => absurd rfl hne)
        fun ws q => ?_
      rw [keptEntries_eq, hlater]
      cases unknown with
      | passthrough =>
          simp only [assemble, hk]
          exact node.finishChecks_adds call _ _ q
      | _ =>
          simp only [assemble, hk]
          exact node.finishChecks_adds call _ _ q
  | _ => exact node.refuse_adds call (by simp only [parts?, hk, hin])

theorem parseRecord_adds {key value : Schema} (hk : node.kind = .record key value) (v : Value)
    (hp : p.report.Records path [] []) :
    (node.parseRecord call (runWithin call hops key) (runWithin call hops value) v).Adds p
      (node.containerTotal call path v hops) := by
  have hin : node.containerInput v = v := by simp only [containerInput, hk]
  cases v with
  | object input =>
      have hparts : node.parts? (.object input) call.options.arena =
          some (entryParts key value input) := by
        simp only [parts?, hk, hin]
      have hown : node.ownIssues call path (.object input) =
          (node.checked call path CheckKind.isSize (.object input)).1 := by
        simp only [ownIssues, hk, hin]
      have hlater : node.runsLater = fun k => !k.isSize := by
        funext k
        simp only [runsLater, hk]
      have hsized := node.sized_tallies call (.object input)
        (fun _ => (entryParts key value input).map (Part.descent (runWithin call hops))) rfl
        (fun outs => node.finishChecks call (!·.isSize) (.object (recordEntries .empty outs))) hp
      rw [← entryDescents_eq] at hsized
      refine node.container_adds call hparts hown hsized fun ws q => ?_
      rw [hlater]
      simp only [assemble, hk]
      exact node.finishChecks_adds call _ _ q
  | _ => exact node.refuse_adds call (by simp only [parts?, hk, hin])

/-! ## Other nodes -/

/-- How many functions of the user's a leaf calls. -/
def leafCalls (v : Value) (l : Leaf) : Nat :=
  let v := if node.settings.coerces then l.coerce v else v
  match l.refusal? node.settings v with
  | some _ => 0
  | none => node.checkCalls call (fun _ => true) v

/-- How many functions of the user's an effect calls.  What comes before a schema is always
called, and what comes after it only for a value that the schema accepts. -/
def effectCalls (effect : Effect) (visit : Visit → Outcome) (t : Visit) : Nat :=
  if effect.flavour = .deferred ∧ call.mode = .immediate then 0
  else
    match effect with
    | .preprocess .. => 1
    | _ => (visit t).afterSuccess 1

/-- How many functions of the user's a node calls itself. -/
def ownCalls (path : Path) (v : Value) (hops : Nat) (visit : Visit → Outcome) : Nat :=
  match node.kind with
  | .leaf l => node.leafCalls call v l
  | .effects inner effect => effectCalls call effect visit ⟨hops, inner, path, v⟩
  | _ => node.containerCalls call path v hops visit

theorem parseLeaf_adds (l : Leaf) (v : Value) :
    (node.parseLeaf call l v).Adds p (node.leafCalls call v l) := by
  unfold parseLeaf leafCalls
  dsimp only
  generalize (if node.settings.coerces then l.coerce v else v) = w
  cases l.refusal? node.settings w with
  | some r => rfl
  | none => exact (node.finishChecks_adds call _ w p).map

theorem parseUnion_adds (hops : Nat) (members : List Schema) (v : Value)
    (hp : p.report.Records path [] []) :
    (node.parseUnion call (members.map (runWithin call hops)) v).Adds p
      (visitCalls call (Plan.attemptedIn call.mode (Visit.outcome call)
        (members.map fun s => ⟨hops, s, path, v⟩))) := by
  refine (tryMembers_adds members hp.path_eq).bind_silent fun r => ?_
  cases r with
  | ok w => exact silent_pure _
  | error reports => exact fun _ => rfl

theorem parseIntersection_adds (hops : Nat) (members : List Schema) (v : Value)
    (hp : p.report.Records path [] []) :
    (node.parseIntersection call (members.map (runWithin call hops)) v).Adds p
      (visitCalls call (Plan.runIn call.mode (node.stops call) (Visit.outcome call)
        (members.map fun s => ⟨hops, s, path, v⟩))) := by
  refine (runMembers_adds (node.stops call) members hp.path_eq).bind_silent fun outs => ?_
  cases outs with
  | none => exact silent_pure _
  | some ws =>
      refine silent_bind (fun _ => rfl) fun invalid => ?_
      cases invalid with
      | true => exact silent_pure _
      | false =>
          cases ws with
          | nil => exact silent_pure _
          | cons w ws =>
              dsimp only
              cases mergeAll? w ws with
              | some merged => exact silent_pure _
              | none => exact fun _ => rfl

theorem raiseFindings_silent (v : Value) : ∀ fs, (raiseFindings call v fs).Silent
  | [] => silent_pure _
  | _ :: fs => silent_bind (fun _ => rfl) fun _ => raiseFindings_silent v fs

/-- What comes after a schema is called once. -/
theorem applyEffect_adds (stops : Bool) {effect : Effect}
    (h : ∀ flavour map, effect ≠ .preprocess flavour map) (v : Value) :
    (applyEffect call stops effect v).Adds p 1 := by
  cases effect with
  | preprocess flavour map => exact absurd rfl (h flavour map)
  | refine flavour accepts message =>
      refine .bind (n := 0) (x := countCall) rfl rfl (Silent.adds ?_ _)
      split
      · exact silent_pure _
      · exact fun _ => rfl
  | rule findings =>
      refine .bind (n := 0) (x := countCall) rfl rfl (Silent.adds ?_ _)
      dsimp only
      split
      · exact silent_pure _
      · exact silent_bind (raiseFindings_silent call v _) fun _ => silent_pure _
  | transform flavour map =>
      refine .bind (n := 0) (x := countCall) rfl rfl (Silent.adds ?_ _)
      split
      · exact silent_pure _
      · exact fun _ => rfl

/-- What a node calls, with the visits that its plan makes. -/
def total (path : Path) (v : Value) (hops : Nat) : Nat :=
  node.ownCalls call path v hops (Visit.outcome call) +
    visitCalls call ((node.plan call path v hops).made call.mode (Visit.outcome call))

/-- A node that leaves everything to one visit. -/
theorem pass_adds (t : Visit) (hp : p.report.Records t.path [] []) :
    (t.schema.runWithin call t.hops t.value).Adds p
      (visitCalls call ((Plan.pass t).made call.mode (Visit.outcome call))) := by
  rw [Plan.made_pass]
  exact t.calls_add hp.path_eq hp.isInvalid_eq

/-- A node that goes on with the output of a visit, and then calls `n` functions itself. -/
theorem andThen_adds (t : Visit) {f : Value → Parser (Option Value)} {next : Value → Plan} (n : Nat)
    (hp : p.report.Records t.path [] [])
    (hf : ∀ w (q : Progress), q.report.Records t.path [] [] → (f w).Adds q
      (n + visitCalls call ((next w).made call.mode (Visit.outcome call)))) :
    (do
      match ← t.schema.runWithin call t.hops t.value with
      | some w => f w
      | none => return none).Adds p
        ((t.outcome call).afterSuccess n +
          visitCalls call ((Plan.andThen t next).made call.mode (Visit.outcome call))) := by
  have hadds : Adds (t.schema.runWithin call t.hops t.value) p (t.calls call) :=
    t.calls_add hp.path_eq hp.isInvalid_eq
  have hyields : Yields _ p t.path (t.outcome call) :=
    t.schema.runWithin_answers call t.hops t.path t.value p hp
  rw [Plan.made, visitCalls_cons, Nat.add_left_comm]
  cases ho : t.outcome call with
  | error e =>
      rw [ho] at hyields
      exact hadds.of_error hyields
  | ok o =>
      rw [ho] at hyields
      obtain ⟨q, hq, hl⟩ := hyields
      rw [Adds, hq] at hadds
      cases o with
      | success w => exact .bind hq hadds (hf w q hl.records)
      | failure is => exact .bind (n := 0) hq hadds rfl

theorem parseEffect_adds (inner : Schema) (effect : Effect) (v : Value)
    (hp : p.report.Records path [] []) :
    (node.parseEffect call (inner, runWithin call hops inner) effect v).Adds p
      (effectCalls call effect (Visit.outcome call) ⟨hops, inner, path, v⟩ +
        visitCalls call ((node.effectPlan call path v hops inner effect).made call.mode
          (Visit.outcome call))) := by
  unfold parseEffect effectCalls effectPlan
  by_cases hd : effect.flavour = .deferred ∧ call.mode = .immediate
  · rw [if_pos hd, if_pos hd, if_pos hd]
    rfl
  · rw [if_neg hd, if_neg hd, if_neg hd]
    cases effect with
    | preprocess flavour map =>
        exact .bind (x := countCall) rfl rfl (pass_adds call ⟨hops, inner, path, map v⟩ hp)
    | _ =>
        exact andThen_adds call ⟨hops, inner, path, v⟩ 1 hp fun w q _ =>
          applyEffect_adds call _ (fun _ _ he => by cases he) w

theorem follow_adds (id : SchemaId) (v : Value) (hp : p.report.Records path [] []) :
    (followWithin call hops id v).Adds p
      (visitCalls call ((lazyPlan call path v hops id).made call.mode (Visit.outcome call))) := by
  unfold lazyPlan
  cases hops with
  | zero =>
      unfold followWithin follow
      cases call.options.arena with
      | none => rfl
      | some a => rfl
  | succ n =>
      unfold followWithin follow
      cases call.options.arena with
      | none => rfl
      | some a =>
          dsimp only
          cases a.get? id with
          | none => rfl
          | some s => exact pass_adds call ⟨n, s, path, v⟩ hp

/-- A node calls its own functions, and those of the visits that its plan makes. -/
theorem runWithin_adds (hops : Nat) (v : Value) (hp : p.report.Records path [] []) :
    (runWithin call hops node v).Adds p (node.total call path v hops) := by
  have hsnd : ∀ members : List Schema,
      (members.map fun t => (t, runWithin call hops t)).map Prod.snd =
        members.map (runWithin call hops) := by
    intro members
    rw [List.map_map]
    rfl
  -- A node that is no container descends into nothing.
  have hcontainer {x : Parser (Option Value)} {n : Nat}
      (hparts : node.parts? v call.options.arena = none) (hx : x.Adds p n) :
      x.Adds p (node.containerCalls call path v hops (Visit.outcome call) + n) := by
    rw [containerCalls, hparts, Nat.zero_add]
    exact hx
  rw [runWithin_eq]
  unfold total ownCalls plan
  cases hk : node.kind with
  | leaf l => exact node.parseLeaf_adds call l v
  | array e => exact node.parseArray_adds call hk v hp
  | set e => exact node.parseSet_adds call hk v hp
  | tuple items rest =>
      have hrest : (rest.map fun t => (t, runWithin call hops t)).map Prod.snd =
          rest.map (runWithin call hops) := by
        rw [Option.map_map]
        rfl
      have ht : Adds _ p (node.containerTotal call path v hops) :=
        node.parseTuple_adds call hk v hp
      rwa [← hrest] at ht
  | object shape unknown =>
      have hobject : (Kind.object shape unknown).map (fun t => (t, runWithin call hops t)) =
          .object (shape.map fun t => (t, runWithin call hops t))
            (besideRuns (runWithin call hops) unknown) := by
        cases unknown <;> rfl
      rw [hobject]
      exact node.parseObject_adds call hk v hp
  | record key value => exact node.parseRecord_adds call hk v hp
  | union members =>
      refine hcontainer (by simp only [parts?, hk]) ?_
      have hm : Adds _ p _ := node.parseUnion_adds call hops members v hp
      rwa [← hsnd] at hm
  | intersection members =>
      refine hcontainer (by simp only [parts?, hk]) ?_
      have hm : Adds _ p _ := node.parseIntersection_adds call hops members v hp
      rwa [← hsnd] at hm
  | optional inner =>
      refine hcontainer (by simp only [parts?, hk]) ?_
      show Adds (if v.isUndefined then _ else _) _ _
      dsimp only
      split
      · rfl
      · exact pass_adds call ⟨hops, inner, path, v⟩ hp
  | nullable inner =>
      refine hcontainer (by simp only [parts?, hk]) ?_
      show Adds (if v.isNull then _ else _) _ _
      dsimp only
      split
      · rfl
      · exact pass_adds call ⟨hops, inner, path, v⟩ hp
  | default inner value =>
      exact hcontainer (by simp only [parts?, hk]) (pass_adds call ⟨hops, inner, path, _⟩ hp)
  | brand inner name =>
      exact hcontainer (by simp only [parts?, hk]) (pass_adds call ⟨hops, inner, path, v⟩ hp)
  | effects inner effect => exact node.parseEffect_adds call inner effect v hp
  | pipeline input output =>
      refine hcontainer (by simp only [parts?, hk]) ?_
      have houtput (w : Value) (q : Progress) (hq : q.report.Records path [] []) :
          (runWithin call hops output w).Adds q (0 + visitCalls call
            ((Plan.pass ⟨hops, output, path, w⟩).made call.mode (Visit.outcome call))) := by
        rw [Nat.zero_add]
        exact pass_adds call ⟨hops, output, path, w⟩ hq
      have hall := andThen_adds call ⟨hops, input, path, v⟩ 0 hp houtput
      rwa [Outcome.afterSuccess_zero, Nat.zero_add] at hall
  | lazy id =>
      exact hcontainer (by simp only [parts?, hk]) (follow_adds call id v hp)

end Schema

/-! ## The calls of a visit -/

/-- How many functions of the user's the node of a visit calls itself. -/
def Visit.ownCalls (call : Call) (t : Visit) : Nat :=
  t.schema.ownCalls call t.path t.value t.hops (Visit.outcome call)

/-- A visit calls the functions of its node, and then there are the calls of the visits that its
plan makes. -/
theorem Visit.calls_eq (call : Call) (t : Visit) :
    t.calls call =
      t.ownCalls call + visitCalls call ((t.plan call).made call.mode (Visit.outcome call)) := by
  have hadds : Adds _ _ _ := t.schema.runWithin_adds call t.hops t.value
    (p := { report := { path := t.path } }) (Report.clean_empty t.path).records
  exact hadds.trans (Nat.zero_add _)

end ValueSchema

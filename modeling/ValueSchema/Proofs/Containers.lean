import ValueSchema.Proofs.Items
import ValueSchema.Proofs.Visits

/-!
# Containers follow their plans

Each kind of container parses a value as its plan says.  `Part.descent` is the descent
into a part, and the descents of every container are those of its parts, in order.  What
the containers share is what happens around the descent: issues of the container itself
come first and may stop it, and an output is put together only when nothing was refused
(`descend_guarded`).
-/

namespace ValueSchema

open ValueSchema.Parser

/-! ## Gathering after own issues -/

namespace Outcome

theorem gather_raised_stops {own : List Issue} (h : own ≠ []) (os : List Outcome) :
    gather true (raised own ++ os) = .ok (own, []) := by
  cases own with
  | nil => exact absurd rfl h
  | cons i is => rfl

theorem gather_raised {stops : Bool} {own : List Issue} (h : own ≠ [] → stops = false)
    (os : List Outcome) :
    gather stops (raised own ++ os) = (gather stops os).map fun r => (own ++ r.1, r.2) := by
  cases own with
  | nil => cases hg : gather stops os <;> simp [raised, hg, Except.map]
  | cons i is =>
      rw [h (List.cons_ne_nil i is)]
      rfl

end Outcome

/-! ## Descents of parts -/

/-- The descent into a part, given the steps of schemas. -/
def Part.descent (run : Schema → Runner) (t : Part) : Descent := ⟨t.segment, run t.schema t.value⟩

/-- The steps of schemas answer the outcomes of visits. -/
def AnswersFor (run : Schema → Runner) (hops : Nat) (visit : Visit → Outcome)
    (schemas : List Schema) : Prop :=
  ∀ s ∈ schemas, ∀ path v, (run s v).Answers path (visit ⟨hops, s, path, v⟩)

section Descents

variable {run : Schema → Runner}

theorem AnswersFor.descents {hops : Nat} {visit : Visit → Outcome} {schemas : List Schema}
    (h : AnswersFor run hops visit schemas) (here : Path) :
    ∀ {parts : List Part}, (∀ t ∈ parts, t.schema ∈ schemas) →
      List.Forall₂ (fun d o => d.step.Answers (here.push d.segment) o)
        (parts.map (Part.descent run)) ((parts.map (Part.visit hops here)).map visit)
  | [], _ => .nil
  | t :: _, hm =>
      .cons (h t.schema (hm t (List.mem_cons_self ..)) _ _)
        (h.descents here fun u hu => hm u (List.mem_cons_of_mem _ hu))

theorem itemDescents_eq (element : Schema) (items : List Value) :
    (items.mapIdx fun i w => (⟨.index i, run element w⟩ : Descent)) =
      (itemParts element items).map (Part.descent run) := by
  rw [itemParts, List.mapIdx_eq_zipIdx_map, List.mapIdx_eq_zipIdx_map, List.map_map]
  rfl

theorem tupleDescents_eq (rest : Option Schema) :
    ∀ (i : Nat) (slots : List Schema) (values : List Value),
      Schema.tupleDescents (rest.map run) i (slots.map run) values =
        (tupleParts rest i slots values).map (Part.descent run)
  | i, [], [] => rfl
  | i, _ :: _, [] => rfl
  | i, s :: slots, v :: vs => by
      rw [List.map_cons, Schema.tupleDescents, tupleParts, List.map_cons,
        tupleDescents_eq rest (i + 1) slots vs]
      rfl
  | i, [], v :: vs => by
      cases rest with
      | none => rfl
      | some s =>
          have ih := tupleDescents_eq (some s) (i + 1) [] vs
          rw [List.map_nil, Option.map_some, Schema.tupleDescents, tupleParts, List.map_cons]
          exact congrArg _ ih

theorem entryDescents_eq (key value : Schema) (input : Entries Value) :
    (input.toList.flatMap fun (k, w) =>
        ([⟨.field k, run key (.string k)⟩, ⟨.field k, run value w⟩] : List Descent)) =
      (entryParts key value input).map (Part.descent run) := by
  rw [entryParts, List.map_flatMap]
  rfl

end Descents

/-! ## Around the descent -/

namespace Parser

variable {β : Type}

/-- A step that goes on only when nothing was refused. -/
def Guards (x : Parser β) (stop : β) (k : List (Option Value) → Parser β) (p : Progress)
    (path : Path) : Except Misuse (List Issue × List Value) → Prop
  | .error e => (x p).1 = .error e
  | .ok (is, ws) => ∃ q : Progress, q.report.Lists path is ∧
      (is = [] → x p = k (ws.map some) q) ∧ (is ≠ [] → x p = (.ok stop, q))

/-- A container descends, with issues of its own that do not stop it, and goes on when
nothing is marked invalid. -/
theorem descend_guarded (call : Call) {stops : Bool} {ds : List Descent} {os : List Outcome}
    {path : Path} {own : List Issue} {p : Progress} (stop : β)
    (k : List (Option Value) → Parser β)
    (h : List.Forall₂ (fun d o => d.step.Answers (path.push d.segment) o) ds os)
    (hp : p.report.Records path own []) (hown : own ≠ [] → stops = false) :
    (do
      let outs ← descend call stops ds
      if ← isInvalid then return stop else k outs).Guards stop k p path
        (Outcome.gather stops (Outcome.raised own ++ os)) := by
  have hc := descend_collects call stops h hp
  rw [Outcome.gather_raised hown]
  cases hg : Outcome.gather stops os with
  | error e =>
      rw [hg] at hc
      exact bind_error hc
  | ok r =>
      rw [hg] at hc
      obtain ⟨outs, ⟨q, hq, hr⟩, hres⟩ := hc
      rw [List.nil_append] at hr
      have hinv : isInvalid q = (.ok (!(own ++ r.1).isEmpty), q) := by
        rw [← hr.isInvalid_eq]
        rfl
      refine ⟨q, hr.lists, fun he => ?_, fun he => ?_⟩
      · have hb : r.1 = [] := (List.append_eq_nil_iff.mp he).2
        rw [bind_eq hq, bind_eq hinv, he, if_neg (by decide), hres hb]
      · rw [bind_eq hq, bind_eq hinv, if_pos (by simpa using he)]
        rfl

/-- A step that goes on only when nothing was refused concludes from what was gathered. -/
theorem Guards.yields {x : Parser (Option Value)} {k : List (Option Value) → Parser (Option Value)}
    {p : Progress} {path : Path} {c : Except Misuse (List Issue × List Value)}
    {build : List Value → Validation} (h : x.Guards none k p path c)
    (hk : ∀ (ws : List Value) (q : Progress), q.report.Records path [] [] →
      (k (ws.map some)).Yields q path (.ok (build ws))) :
    x.Yields p path (Plan.conclude c build) := by
  cases c with
  | error e => exact h
  | ok r =>
      obtain ⟨is, ws⟩ := r
      obtain ⟨q, hl, hgo, hstop⟩ := h
      cases is with
      | nil => exact .of_eq (hgo rfl) (hk ws q hl.records)
      | cons i is => exact ⟨q, hstop (List.cons_ne_nil i is), hl⟩

theorem Guards.of_eq {x y : Parser β} {stop : β} {k : List (Option Value) → Parser β}
    {p q : Progress} {path : Path} {c : Except Misuse (List Issue × List Value)}
    (h : x p = y q) (hy : y.Guards stop k q path c) : x.Guards stop k p path c := by
  cases c with
  | error e => exact (congrArg Prod.fst h).trans hy
  | ok r =>
      obtain ⟨q', hl, hgo, hstop⟩ := hy
      exact ⟨q', hl, fun he => h.trans (hgo he), fun he => h.trans (hstop he)⟩

/-- Own issues stop a node that stops early. -/
theorem Guards.of_own (stop : β) (k : List (Option Value) → Parser β) {p : Progress} {path : Path}
    {own : List Issue} (hp : p.report.Records path own []) (hown : own ≠ []) (os : List Outcome) :
    (pure stop : Parser β).Guards stop k p path
      (Outcome.gather true (Outcome.raised own ++ os)) := by
  rw [Outcome.gather_raised_stops hown]
  exact ⟨p, by simpa using hp.lists, fun he => absurd he hown, fun _ => rfl⟩

end Parser

namespace Schema

variable (node : Schema) (call : Call)

/-! ## Checks at the end -/

theorem finishChecks_ends (select : CheckKind → Bool) (v : Value) {p : Progress} {path : Path}
    (hp : p.report.Records path [] []) :
    (node.finishChecks call select v).Ends p
      (if (node.checked call path select v).1.isEmpty then some (node.checked call path select v).2
        else none) path (node.checked call path select v).1 [] :=
  (node.runChecks_ends call select v hp).bind fun _ hq => .of_pure _ hq

/-- The remaining checks. -/
theorem finishChecks_yields_self (select : CheckKind → Bool) (v : Value) {p : Progress}
    {path : Path} (hp : p.report.Records path [] []) :
    (node.finishChecks call select v).Yields p path
      (.ok (node.finished call path select (fun w => w) v)) := by
  obtain ⟨q, hq, hr⟩ := node.finishChecks_ends call select v hp
  exact .of_eq (y := pure _) hq (.of_after (by simpa using hr.lists) rfl)

/-- The remaining checks and a conversion of the output. -/
theorem finishChecks_yields (select : CheckKind → Bool) (v : Value) {p : Progress} {path : Path}
    (hp : p.report.Records path [] []) {f : Option Value → Option Value} {convert : Value → Value}
    (hf : ∀ out, f out = out.map convert) :
    (node.finishChecks call select v >>= fun out => pure (f out)).Yields p path
      (.ok (node.finished call path select convert v)) := by
  obtain ⟨q, hq, hr⟩ := node.finishChecks_ends call select v hp
  refine .of_eq (bind_eq hq) ?_
  have hl : q.report.Lists path (node.checked call path select v).1 := by simpa using hr.lists
  refine .of_after hl ?_
  rw [hf]
  cases (node.checked call path select v).1 <;> rfl

/-! ## Size checks -/

/-- A check that measures a container leaves it as it is. -/
theorem evaluate_ne_rewrite {c : Check} (h : c.kind.isSize = true) (v w : Value) :
    c.evaluate v ≠ .rewrite w := by
  intro hw
  have hkind := Check.kind_of_rewrite hw
  generalize c.kind = k at h hkind
  simp only [List.mem_cons, List.not_mem_nil, or_false] at hkind
  rcases hkind with rfl | rfl | rfl <;> cases h

theorem checkedBy_isSize_snd (path : Path) (stops : Bool) :
    ∀ (es : List CheckEntry) (v : Value), (∀ e ∈ es, e.kind.isSize = true) →
      (node.checkedBy call path stops es v).2 = v
  | [], _, _ => rfl
  | e :: es, v, h => by
      have ih := checkedBy_isSize_snd path stops es v fun d hd => h d (List.mem_cons_of_mem _ hd)
      rw [checkedBy]
      cases he : e.check.evaluate v with
      | pass => exact ih
      | rewrite w => exact absurd he (evaluate_ne_rewrite (h e (List.mem_cons_self ..)) v w)
      | fail received =>
          cases stops with
          | true => rfl
          | false => exact ih

/-- The checks before a descent leave the container as it is. -/
theorem checked_isSize_snd (path : Path) (v : Value) :
    (node.checked call path CheckKind.isSize v).2 = v :=
  node.checkedBy_isSize_snd call path _ _ v fun _ he => (List.mem_filter.mp he).2

/-! ## Arrays and sets -/

section Kinds

variable {run : Schema → Runner} {hops : Nat} {visit : Visit → Outcome} {path : Path}
  {p : Progress}

/-- A container that is measured first descends when its size is right or it does not stop
early. -/
theorem sized_guards {γ : Type} {schemas : List Schema} {parts : List Part}
    (h : AnswersFor run hops visit schemas) (hmem : ∀ t ∈ parts, t.schema ∈ schemas)
    (container : Value) (descents : Value → List Descent)
    (hd : descents container = parts.map (Part.descent run))
    (k : List (Option Value) → Parser (Option γ)) (hp : p.report.Records path [] []) :
    (do
      let (sized, w) ← node.runChecks call CheckKind.isSize container
      if !sized && node.stops call then return none
      else
        let outs ← Parser.descend call (node.stops call) (descents w)
        if ← Parser.isInvalid then return none else k outs).Guards none k p path
      (Outcome.gather (node.stops call)
        (Outcome.raised (node.checked call path CheckKind.isSize container).1 ++
          (parts.map (Part.visit hops path)).map visit)) := by
  obtain ⟨q, hq, hr⟩ := node.runChecks_ends call CheckKind.isSize container hp
  rw [List.nil_append] at hr
  refine .of_eq (bind_eq hq) ?_
  by_cases hs : (node.checked call path CheckKind.isSize container).1 ≠ [] ∧ node.stops call = true
  · rw [hs.2]
    refine .of_eq ?_ (.of_own none k hr hs.1 _)
    exact congrFun (if_pos (by simpa using hs.1)) q
  · have hown : (node.checked call path CheckKind.isSize container).1 ≠ [] →
        node.stops call = false := by simpa using hs
    refine .of_eq ?_ (descend_guarded call none k (h.descents path hmem) hr hown)
    rw [node.checked_isSize_snd, ← hd]
    exact congrFun (if_neg (by simpa using hs)) q

theorem parseItems_guards {e : Schema} (h : AnswersFor run hops visit [e]) (container : Value)
    (hp : p.report.Records path [] []) :
    (node.parseItems call (run e) container).Guards none
      (fun outs => pure (outs.mapM fun out => out)) p path
      (Outcome.gather (node.stops call)
        (Outcome.raised (node.checked call path CheckKind.isSize container).1 ++
          ((itemParts e container.items).map (Part.visit hops path)).map visit)) :=
  node.sized_guards call h (fun _ ht => List.mem_singleton.mpr (mem_itemParts ht)) container
    (fun w => w.items.mapIdx fun i t => ⟨.index i, run e t⟩) (itemDescents_eq e container.items)
    _ hp

/-- The items of a container, when nothing was refused. -/
theorem mapM_some (ws : List Value) : (ws.map some).mapM (fun out => out) = some ws := by
  induction ws with
  | nil => rfl
  | cons w ws ih => simp [ih]

/-- A container of equal parts goes on with its items. -/
theorem parseItems_yields {e : Schema} (h : AnswersFor run hops visit [e]) (container : Value)
    (hp : p.report.Records path [] []) {k : List Value → Parser (Option Value)}
    {build : List Value → Validation}
    (hk : ∀ (ws : List Value) (q : Progress), q.report.Records path [] [] →
      (k ws).Yields q path (.ok (build ws))) :
    (do
      match ← node.parseItems call (run e) container with
      | none => return none
      | some items => k items).Yields p path
      (Plan.conclude (Outcome.gather (node.stops call)
        (Outcome.raised (node.checked call path CheckKind.isSize container).1 ++
          ((itemParts e container.items).map (Part.visit hops path)).map visit)) build) := by
  have hg := node.parseItems_guards call h container hp
  revert hg
  cases Outcome.gather (node.stops call) _ with
  | error err => exact bind_error
  | ok r =>
      obtain ⟨is, ws⟩ := r
      rintro ⟨q, hl, hgo, hstop⟩
      cases is with
      | nil =>
          have hx : node.parseItems call (run e) container p = (.ok (some ws), q) := by
            rw [hgo rfl, ← mapM_some ws]
            rfl
          exact .of_eq (bind_eq hx) (hk ws q hl.records)
      | cons i is => exact .of_eq (bind_eq (hstop (List.cons_ne_nil i is))) ⟨q, rfl, hl⟩

/-- The refusal of a value that a container does not descend into. -/
theorem refuseType_yields (expected : ValueKind) {v w : Value} (hin : node.containerInput v = w)
    (hparts : node.parts? v call.options.arena = none)
    (hrefusal : node.containerRefusal v = node.settings.typeRefusal expected w)
    (hp : p.report.Records path [] []) :
    (node.refuseType call expected w).Yields p path
      ((node.containerPlan call path v hops).outcome call.mode visit) := by
  unfold containerPlan
  rw [hparts, hrefusal, hin]
  exact .of_refuse hp call _ _ _

/-- A container of equal parts follows its plan: its size is checked first, and then the
items are put together, checked and converted. -/
theorem itemsPlan_yields {e : Schema} (h : AnswersFor run hops visit [e]) {v container : Value}
    (put : List Value → Value) {convert : Value → Value}
    (hparts : node.parts? v call.options.arena = some (itemParts e container.items))
    (hown : node.ownIssues call path v = (node.checked call path CheckKind.isSize container).1)
    (hlater : ∀ k, node.runsLater k = !k.isSize) (hcast : ∀ w, node.castOutput w = convert w)
    (hput : ∀ ws, node.assemble v (itemParts e container.items) ws = put ws)
    (hp : p.report.Records path [] []) :
    (do
      match ← node.parseItems call (run e) container with
      | none => return none
      | some items =>
          return (← node.finishChecks call (!·.isSize) (put items)).map convert).Yields p path
      ((node.containerPlan call path v hops).outcome call.mode visit) := by
  have hselect : node.runsLater = fun k => !k.isSize := funext hlater
  have hconvert : node.castOutput = convert := funext hcast
  unfold containerPlan
  rw [hparts, hown, hselect, hconvert]
  refine node.parseItems_yields call h container hp fun ws q hq => ?_
  rw [hput]
  exact node.finishChecks_yields call _ _ hq fun _ => rfl

theorem parseArray_answers {e : Schema} (hk : node.kind = .array e)
    (h : AnswersFor run hops visit [e]) (v : Value) :
    (node.parseArray call (run e) v).Answers path
      ((node.containerPlan call path v hops).outcome call.mode visit) := by
  intro p hp
  have hin : node.settings.arrayInput v = node.containerInput v := by simp only [containerInput, hk]
  unfold parseArray
  rw [hin]
  dsimp only
  split
  next items hv =>
      rw [hv]
      refine node.itemsPlan_yields call h .array ?_ ?_ (fun k => ?_) (fun w => ?_) (fun ws => ?_) hp
      · simp only [parts?, hk, hv, Value.items, Value.asItems?, Option.getD_some]
      · simp only [ownIssues, hk, hv]
      · simp only [runsLater, hk]
      · simp only [castOutput, hk]
      · simp only [assemble, hk]
  next hv =>
      refine node.refuseType_yields call .array rfl ?_ ?_ hp
      · simp only [parts?, hk]
        split <;> simp_all
      · simp only [containerRefusal, wrongArity?, hk]

theorem parseSet_answers {e : Schema} (hk : node.kind = .set e)
    (h : AnswersFor run hops visit [e]) (v : Value) :
    (node.parseSet call (run e) v).Answers path
      ((node.containerPlan call path v hops).outcome call.mode visit) := by
  intro p hp
  have hin : node.settings.setInput v = node.containerInput v := by simp only [containerInput, hk]
  unfold parseSet
  rw [hin]
  dsimp only
  split
  next items hv =>
      rw [hv]
      refine node.itemsPlan_yields call h (fun ws => .set (Value.distinct ws)) ?_ ?_
        (fun k => ?_) (fun w => ?_) (fun ws => ?_) hp
      · simp only [parts?, hk, hv, Value.items, Value.asItems?, Option.getD_some]
      · simp only [ownIssues, hk, hv]
      · simp only [runsLater, hk]
      · simp only [castOutput, hk]
      · simp only [assemble, hk]
  next hv =>
      refine node.refuseType_yields call .set rfl ?_ ?_ hp
      · simp only [parts?, hk]
        split <;> simp_all
      · simp only [containerRefusal, wrongArity?, hk]

/-! ## Tuples -/

theorem parseTuple_answers {items : List Schema} {rest : Option Schema}
    (hk : node.kind = .tuple items rest) (h : AnswersFor run hops visit (items ++ rest.toList))
    (v : Value) :
    (node.parseTuple call (items.map fun s => (s, run s)) (rest.map run) v).Answers path
      ((node.containerPlan call path v hops).outcome call.mode visit) := by
  intro p hp
  have hin : node.settings.arrayInput v = node.containerInput v := by simp only [containerInput, hk]
  have hslots : ((items.map fun s => (s, run s)).filter fun s =>
      !s.1.settings.discarded).map Prod.snd = (slots items).map run := by
    rw [List.filter_map, List.map_map]
    rfl
  unfold parseTuple
  rw [hin, hslots]
  dsimp only
  split
  next values hv =>
      rw [List.length_map, Option.isSome_map]
      have harity : node.wrongArity? v =
          arityFailure? (slots items).length values.length rest.isSome := by
        simp only [wrongArity?, hk, hv]
      split
      next failure hf =>
          have hparts : node.parts? v call.options.arena = none := by
            simp only [parts?, hk, hv, harity, hf, Option.isSome_some, if_true]
          unfold containerPlan
          rw [hparts]
          simp only [containerRefusal, harity, hf, hv]
          exact .of_refuse hp call _ _ _
      next hf =>
          have hparts : node.parts? v call.options.arena =
              some (tupleParts rest 0 (slots items) values) := by
            simp only [parts?, hk, hv, harity, hf, Option.isSome_none]
            rfl
          have hown : node.ownIssues call path v = [] := by simp only [ownIssues, hk]
          have hlater : node.runsLater = fun _ => true := by
            funext k
            simp only [runsLater, hk]
          have hcast : node.castOutput = fun w => w := by
            funext w
            simp only [castOutput, hk]
          have hmem : ∀ t ∈ tupleParts rest 0 (slots items) values,
              t.schema ∈ items ++ rest.toList := fun _ ht => tupleSchema_mem ht
          unfold containerPlan
          rw [hparts, hown, hlater, hcast, tupleDescents_eq]
          refine (descend_guarded call none _ (h.descents path hmem) hp nofun).yields ?_
          intro ws q hq
          have hws : (ws.map some).filterMap (fun out => out) = ws := by simp
          rw [hws]
          simp only [assemble, hk]
          exact node.finishChecks_yields_self call _ _ hq
  next hv =>
      refine node.refuseType_yields call .array rfl ?_ ?_ hp
      · simp only [parts?, hk]
        split <;> simp_all
      · simp only [containerRefusal, wrongArity?, hk]
        split <;> simp_all

/-! ## Objects -/

/-- Raises issues and goes on, or stops at the first one. -/
def raiseThen (stops : Bool) (v : Value) (rest : Parser (Option Value)) :
    List (Cause Issue) → Parser (Option Value)
  | [] => rest
  | c :: cs => do
      Parser.raise call c none v
      if stops then return none else raiseThen stops v rest cs

theorem raiseThen_guards {stops : Bool} {v : Value} {rest : Parser (Option Value)}
    {k : List (Option Value) → Parser (Option Value)} {os : List Outcome}
    (hrest : ∀ (q : Progress) (own : List Issue), q.report.Records path own [] →
      (own ≠ [] → stops = false) →
      rest.Guards none k q path (Outcome.gather stops (Outcome.raised own ++ os))) :
    ∀ (causes : List (Cause Issue)) {q : Progress} {own : List Issue},
      q.report.Records path own [] → (own ≠ [] → stops = false) →
      (raiseThen call stops v rest causes).Guards none k q path
        (Outcome.gather stops (Outcome.raised (own ++
          (let issues := causes.map fun c => call.issue c path none v
          if stops then issues.take 1 else issues)) ++ os))
  | [], q, own, hq, hown => by simpa [raiseThen] using hrest q own hq hown
  | c :: cs, q, own, hq, hown => by
      obtain ⟨q', hq', hr⟩ := raise_ends hq call c none v
      refine .of_eq (bind_eq hq') ?_
      cases stops with
      | true =>
          -- A node that stops early has raised nothing before this issue.
          have hnil : own = [] := by
            by_contra hne
            exact nomatch hown hne
          subst hnil
          exact .of_own none k hr (List.cons_ne_nil _ _) os
      | false =>
          have ih := raiseThen_guards (v := v) hrest cs hr fun _ => rfl
          rwa [List.append_assoc] at ih

/-- The policy for undeclared keys with its schema beside its step. -/
def besideRuns (run : Schema → Runner) : UnknownKeys Schema → UnknownKeys (Schema × Runner)
  | .strict => .strict
  | .strip => .strip
  | .passthrough => .passthrough
  | .catchall s => .catchall (s, run s)

/-- The descent of an object and what comes after it. -/
def parseFields (run : Schema → Runner) (parts : List Part) (extra : List (String × Value)) :
    Parser (Option Value) := do
  let outs ← Parser.descend call (node.stops call) (parts.map (Part.descent run))
  if ← Parser.isInvalid then return none
  else
    let kept := ((parts.map fun t => t.segment.text).zip outs).filterMap fun (k, out) =>
      match out with
      | some w => if w.isUndefined then none else some (k, w)
      | none => none
    node.finishChecks call (fun _ => true) (.object ((Entries.ofList kept).insertAll extra))

section Shapes

variable (arena : Option Arena) (shape : Entries Schema) (input : Entries Value)

theorem missingKeys_eq :
    missingKeys arena (shape.map fun s => (s, run s)) input = absentKeys arena shape input := by
  show (((shape.toList.map fun e => (e.1, (e.2, run e.2))).filter _).map Prod.fst) = _
  rw [List.filter_map, List.map_map]
  rfl

theorem undeclared_eq :
    (input.filter fun k _ => !(shape.map fun s => (s, run s)).hasKey k).toList =
      undeclaredEntries shape input := by
  simp only [Entries.hasKey_map]
  rfl

theorem undeclaredKeys_eq :
    undeclaredKeys (shape.map fun s => (s, run s)) input =
      (undeclaredEntries shape input).map Prod.fst := by
  rw [undeclaredKeys, Entries.keys, undeclaredEntries, List.filter_map]
  simp only [Entries.hasKey_map]
  rfl

theorem fieldSteps_eq :
    fieldSteps arena (shape.map fun s => (s, run s)) input =
      (fieldParts arena shape input).map fun t => (t.segment.text, run t.schema t.value) := by
  show (shape.toList.map fun e => (e.1, (e.2, run e.2))).filterMap _ = _
  rw [fieldParts, List.filterMap_map, List.map_filterMap]
  refine List.filterMap_congr fun e _ => ?_
  show Option.map _ _ = Option.map _ (Option.map _ _)
  rw [Option.map_map]
  rfl

end Shapes

theorem parseFields_eq {steps : List (String × Parser (Option Value))} {parts : List Part}
    (hsteps : steps = parts.map fun t => (t.segment.text, run t.schema t.value))
    (hseg : ∀ t ∈ parts, ∃ k, t.segment = .field k) (extra : List (String × Value)) :
    node.parseFields call run parts extra = (do
      let outs ← Parser.descend call (call.abortsEarly node.settings.abortEarly)
        (steps.map fun (k, step) => ⟨.field k, step⟩)
      if ← Parser.isInvalid then return none
      let kept := ((steps.map Prod.fst).zip outs).filterMap fun (k, out) =>
        match out with
        | some w => if w.isUndefined then none else some (k, w)
        | none => none
      node.finishChecks call (fun _ => true)
        (.object ((Entries.ofList kept).insertAll extra))) := by
  have hdescents : parts.map (Part.descent run) =
      steps.map fun (k, step) => (⟨.field k, step⟩ : Descent) := by
    rw [hsteps, List.map_map]
    refine List.map_congr_left fun t ht => ?_
    obtain ⟨k, hk⟩ := hseg t ht
    show (⟨t.segment, _⟩ : Descent) = ⟨.field t.segment.text, _⟩
    rw [hk]
    rfl
  have hkeys : (parts.map fun t => t.segment.text) = steps.map Prod.fst := by
    rw [hsteps, List.map_map]
    rfl
  rw [parseFields, hdescents, hkeys]
  rfl

theorem segment_of_mem {arena : Option Arena} {shape : Entries Schema}
    {unknown : UnknownKeys Schema} {input : Entries Value} {t : Part}
    (h : t ∈ fieldParts arena shape input ++ catchallParts shape unknown input) :
    ∃ k, t.segment = .field k := by
  cases List.mem_append.mp h with
  | inl hf =>
      obtain ⟨⟨k, s⟩, -, he⟩ := List.mem_filterMap.mp hf
      obtain ⟨w, -, rfl⟩ := Option.map_eq_some_iff.mp he
      exact ⟨k, rfl⟩
  | inr hc =>
      cases unknown with
      | catchall s =>
          obtain ⟨e, -, rfl⟩ := List.mem_map.mp hc
          exact ⟨e.1, rfl⟩
      | _ => exact nomatch hc

theorem objectSteps_eq (arena : Option Arena) (shape : Entries Schema)
    (unknown : UnknownKeys Schema) (input : Entries Value) :
    fieldSteps arena (shape.map fun s => (s, run s)) input ++ (match unknown with
      | .catchall s => (undeclaredEntries shape input).map fun e => (e.1, run s e.2)
      | _ => []) =
      (fieldParts arena shape input ++ catchallParts shape unknown input).map
        fun t => (t.segment.text, run t.schema t.value) := by
  rw [fieldSteps_eq, List.map_append]
  cases unknown with
  | catchall s =>
      rw [catchallParts, List.map_map]
      rfl
  | _ => rfl

/-- An object raises its own issues, one after the other, before it descends. -/
theorem parseObject_eq (shape : Entries Schema) (unknown : UnknownKeys Schema)
    (input : Entries Value) :
    node.parseObject call (shape.map fun s => (s, run s))
      (besideRuns run unknown) (.object input) =
      raiseThen call (node.stops call) (.object input)
        (node.parseFields call run
          (fieldParts call.options.arena shape input ++ catchallParts shape unknown input)
          (match unknown with
            | .passthrough => undeclaredEntries shape input
            | _ => []))
        (keyCauses call.options.arena shape unknown input) := by
  rw [node.parseFields_eq call (objectSteps_eq _ shape unknown input) fun t ht => segment_of_mem ht]
  unfold parseObject
  dsimp only
  rw [missingKeys_eq, undeclaredKeys_eq, undeclared_eq]
  unfold keyCauses
  dsimp only
  cases (absentKeys call.options.arena shape input).isEmpty <;>
    cases ((undeclaredEntries shape input).map Prod.fst).isEmpty <;>
    cases unknown <;> rfl

/-- The outputs of fields, when nothing was refused. -/
theorem keptEntries_eq (parts : List Part) (ws : List Value) :
    (((parts.map fun t => t.segment.text).zip (ws.map some)).filterMap fun (k, out) =>
      match out with
      | some w => if w.isUndefined then none else some (k, w)
      | none => none) = keptEntries parts ws := by
  rw [List.zip_map, List.filterMap_map]
  rfl

theorem parseObject_answers {shape : Entries Schema} {unknown : UnknownKeys Schema}
    (hk : node.kind = .object shape unknown) (h : AnswersFor run hops visit node.kind.children)
    (v : Value) :
    (node.parseObject call (shape.map fun s => (s, run s))
      (besideRuns run unknown) v).Answers path
      ((node.containerPlan call path v hops).outcome call.mode visit) := by
  intro p hp
  have hin : node.containerInput v = v := by simp only [containerInput, hk]
  cases v with
  | object input =>
      rw [parseObject_eq]
      have hparts : node.parts? (.object input) call.options.arena =
          some (fieldParts call.options.arena shape input ++
            catchallParts shape unknown input) := by
        simp only [parts?, hk, hin]
      have hown : node.ownIssues call path (.object input) =
          (let issues := (keyCauses call.options.arena shape unknown input).map fun c =>
            call.issue c path none (.object input)
          if node.stops call then issues.take 1 else issues) := by
        simp only [ownIssues, hk, hin]
      have hlater : node.runsLater = fun _ => true := by
        funext k
        simp only [runsLater, hk]
      have hcast : node.castOutput = fun w => w := by
        funext w
        simp only [castOutput, hk]
      have hmem : ∀ t ∈ fieldParts call.options.arena shape input ++
          catchallParts shape unknown input, t.schema ∈ node.kind.children := by
        intro t ht
        rw [hk]
        exact objectSchema_mem ht
      unfold containerPlan
      rw [hparts, hown, hlater, hcast]
      refine (raiseThen_guards call (fun q own hq hown =>
        descend_guarded call none _ (h.descents path hmem) hq hown) _ hp nofun).yields ?_
      intro ws q hq
      rw [keptEntries_eq]
      cases unknown with
      | passthrough =>
          simp only [assemble, hk]
          exact node.finishChecks_yields_self call _ _ hq
      | _ =>
          simp only [assemble, hk]
          exact node.finishChecks_yields_self call _ _ hq
  | _ =>
      refine node.refuseType_yields call .object hin ?_ ?_ hp
      · simp only [parts?, hk, hin]
      · simp only [containerRefusal, wrongArity?, hk, hin]

/-! ## Records -/

theorem parseRecord_answers {key value : Schema} (hk : node.kind = .record key value)
    (h : AnswersFor run hops visit [key, value]) (v : Value) :
    (node.parseRecord call (run key) (run value) v).Answers path
      ((node.containerPlan call path v hops).outcome call.mode visit) := by
  intro p hp
  have hin : node.containerInput v = v := by simp only [containerInput, hk]
  cases v with
  | object input =>
      have hparts : node.parts? (.object input) call.options.arena =
          some (entryParts key value input) := by
        simp only [parts?, hk, hin]
      have hown : node.ownIssues call path (.object input) =
          (node.checked call path CheckKind.isSize (.object input)).1 := by
        simp only [ownIssues, hk, hin]
      have hlater : node.runsLater = fun k => !k.isSize := by
        funext k
        simp only [runsLater, hk]
      have hcast : node.castOutput = fun w => w := by
        funext w
        simp only [castOutput, hk]
      have hsized := node.sized_guards call h (fun _ ht => mem_entryParts ht) (.object input)
        (fun _ => (entryParts key value input).map (Part.descent run)) rfl
        (fun outs => node.finishChecks call (!·.isSize) (.object (recordEntries .empty outs))) hp
      rw [← entryDescents_eq] at hsized
      unfold containerPlan
      rw [hparts, hown, hlater, hcast]
      refine hsized.yields fun ws q hq => ?_
      simp only [assemble, hk]
      exact node.finishChecks_yields_self call _ _ hq
  | _ =>
      refine node.refuseType_yields call .object hin ?_ ?_ hp
      · simp only [parts?, hk, hin]
      · simp only [containerRefusal, wrongArity?, hk, hin]

end Kinds

end Schema

end ValueSchema
